import HelperHandoff.Crowd

set_option autoImplicit false

namespace HelperHandoff.Crowd

open Counter (Store)

variable {ι : Type}

def Party.bare (p : Party) : Party := { p with log := [] }

def Reply.bare (x : Reply) : Reply := { x with party := x.party.bare }

theorem Party.act_bare (d : Deal) (p : Party) (s : Store) :
    p.bare.act d s = (p.act d s).map Reply.bare := by
  obtain ⟨counter, tenure, acts, log⟩ := p
  cases d <;> cases tenure <;> simp [act, bare, Reply.bare, Function.comp_def]

structure Matches (r r' : Crowd ι) : Prop where
  store : r.store = r'.store
  party : ∀ i, (r.party i).map Party.bare = (r'.party i).map Party.bare

theorem Matches.refl (r : Crowd ι) : Matches r r := ⟨rfl, fun _ => rfl⟩

theorem Matches.trans {r r' r'' : Crowd ι} (h : Matches r r') (k : Matches r' r'') :
    Matches r r'' :=
  ⟨h.store.trans k.store, fun i => (h.party i).trans (k.party i)⟩

theorem Matches.reply? {r r' : Crowd ι} (h : Matches r r') (t : Turn ι) :
    (r.reply? t).map Reply.bare = (r'.reply? t).map Reply.bare := by
  have hp := h.party t.who
  unfold Crowd.reply?
  cases hq : r.party t.who with
  | none =>
    rw [hq, Option.map_none] at hp
    rw [Option.map_eq_none_iff.mp hp.symm, h.store]
  | some p =>
    rw [hq, Option.map_some] at hp
    obtain ⟨p', hp', hb⟩ := Option.map_eq_some_iff.mp hp.symm
    rw [hp']
    show (p.act t.deal r.store).map Reply.bare = (p'.act t.deal r'.store).map Reply.bare
    rw [← Party.act_bare, ← Party.act_bare, hb, h.store]

variable [DecidableEq ι]

/-- A turn that leaves the party what it was changes the counters only. -/
theorem matches_settle {r : Crowd ι} {t : Turn ι} {x : Reply} (hp : r.party t.who = some x.party) :
    Matches (r.settle t x) ⟨x.store, r.party⟩ := by
  refine ⟨rfl, fun j => ?_⟩
  show Option.map Party.bare (if j = t.who then _ else _) = _
  split
  · next hj =>
    rw [hj, hp]
    rfl
  · rfl

theorem Matches.step {r r' : Crowd ι} (h : Matches r r') (t : Turn ι) :
    Matches ((r.step t).getD r) ((r'.step t).getD r') := by
  have hr := h.reply? t
  unfold Crowd.step
  cases hx : r.reply? t with
  | none =>
    rw [hx, Option.map_none] at hr
    rw [Option.map_eq_none_iff.mp hr.symm]
    exact h
  | some x =>
    rw [hx, Option.map_some] at hr
    obtain ⟨x', hx', hb⟩ := Option.map_eq_some_iff.mp hr.symm
    obtain ⟨-, hparty, hstore⟩ := Reply.mk.inj hb
    rw [hx']
    refine ⟨hstore.symm, fun j => ?_⟩
    show Option.map Party.bare (if j = t.who then _ else _) =
      Option.map Party.bare (if j = t.who then _ else _)
    split
    · exact congrArg some hparty.symm
    · exact h.party j

theorem Matches.run {r r' : Crowd ι} (h : Matches r r') (turns : List (Turn ι)) :
    Matches (r.run turns) (r'.run turns) := by
  induction turns generalizing r r' with
  | nil => exact h
  | cons t rest ih => exact ih (h.step t)

end HelperHandoff.Crowd
