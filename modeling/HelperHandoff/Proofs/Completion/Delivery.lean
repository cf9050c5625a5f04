import HelperHandoff.Proofs.Completion.Progress

/-!
A completion with an honest helper: all that others do to the counter is to publish one exit code
that a counter takes. The client returns that code if it was published before the client read the
counter, and a timeout otherwise. A code that is published after the reading and before the removal
is stored, though nobody returns it; that is the only way for the two sides to disagree.
-/

set_option autoImplicit false

namespace HelperHandoff.Completion

open Counter (Guard Store)

def Turn.hands (turns : List Turn) : List Hand :=
  turns.filterMap fun
    | .other h => some h
    | .own _ => none

theorem Turn.hands_append (a b : List Turn) : hands (a ++ b) = hands a ++ hands b := by
  simp [hands]

theorem Turn.exists_of_mem_hands {h : Hand} {turns : List Turn} (hm : h ∈ hands turns) :
    ∃ before, before ++ [.other h] <+: turns := by
  obtain ⟨turn, ht, hh⟩ := List.mem_filterMap.mp hm
  cases turn with
  | own m => cases hh
  | other g =>
    obtain rfl := Option.some.inj hh
    obtain ⟨before, after, rfl⟩ := List.append_of_mem ht
    exact ⟨before, after, by simp⟩

/-- Somebody has published the code and was told that it is stored. -/
def Published (code : Int32) (deeds : List Deed) : Prop := ⟨.publish code, none⟩ ∈ deeds

instance (code : Int32) (deeds : List Deed) : Decidable (Published code deeds) :=
  inferInstanceAs (Decidable (_ ∈ _))

section Honest

variable {code : Int32} {deeds : List Deed}

theorem published_of_honest (h : ∀ d ∈ deeds, d.hand = .publish code) {d : Deed} (hd : d ∈ deeds)
    (hf : d.failure = none) : Published code deeds := by
  have he : d = ⟨.publish code, none⟩ := by
    rw [← h d hd, ← hf]
  rw [he] at hd
  exact hd

theorem not_removed_of_honest (h : ∀ d ∈ deeds, d.hand = .publish code) : ¬ Removed deeds := by
  intro hr
  cases h _ hr

theorem left_of_honest (h : ∀ d ∈ deeds, d.hand = .publish code) :
    left deeds = if Published code deeds then ExitCode.encode? code else some 0 := by
  induction deeds using List.reverseRecOn with
  | nil => simp [left, Published]
  | append_singleton deeds d ih =>
    have hd : d.hand = .publish code := h d (by simp)
    have hold := ih fun e he => h e (by simp [he])
    obtain ⟨hand, failure⟩ := d
    obtain rfl : hand = .publish code := hd
    rw [left_concat, hold]
    cases failure with
    | none => simp [Published, Hand.cell?]
    | some e =>
      have hp : Published code (deeds ++ [⟨.publish code, some e⟩]) ↔ Published code deeds := by
        simp [Published]
      simp [hp]

theorem Kept.publish_failure {id : Int} {s : Store} (k : Kept id deeds s) (hn : ¬ Removed deeds)
    (ha : ExitCode.Accepted code) : ((Hand.publish code).act id s).1 = none := by
  have hl : s.live id := by
    by_contra hg
    exact hn (k.gone_iff.mp (Store.not_live_iff.mp hg))
  exact Store.publish_of_accepted hl ha

theorem Kept.heeded {id : Int} {s : Store} (k : Kept id deeds s)
    (hd : ∀ d ∈ deeds, d.hand = .publish code) (ha : ExitCode.Accepted code) {hands : List Hand}
    (hh : ∀ h ∈ hands, h = .publish code) :
    ∀ d ∈ (Hand.actAll id hands s).1, d = ⟨.publish code, none⟩ := by
  induction hands generalizing deeds s with
  | nil => simp [Hand.actAll]
  | cons h rest ih =>
    obtain rfl : h = .publish code := hh h (by simp)
    have hf := k.publish_failure (not_removed_of_honest hd) ha
    have hnext := ih (k.act (.publish code)) (by simpa [or_imp, forall_and] using hd)
      fun g hg => hh g (by simp [hg])
    intro d hm
    obtain rfl | hm := List.mem_cons.mp hm
    · exact congrArg (Deed.mk _) hf
    · exact hnext d hm

end Honest

namespace Race

/-- A completion in which others have only published this code. -/
structure Served (code : Int32) (r : Race) : Prop where
  sound : Sound r
  honest : ∀ d ∈ r.deeds, d.hand = .publish code
  heeded : r.client.stage.isOver = false → ∀ d ∈ r.deeds, d.failure = none

variable {r r' : Race} {code : Int32} {turn : Turn}

theorem Steps.isOver_of_isOver (h : Steps turn r r') (ho : r'.client.stage.isOver = false) :
    r.client.stage.isOver = false := by
  rw [Bool.eq_false_iff, ne_eq, Stage.isOver_iff] at ho ⊢
  exact fun hr => ho (Nat.le_trans hr h.rank_le)

theorem Steps.deeds_of_own {m : Move} (h : Steps (.own m) r r') : r'.deeds = r.deeds := by
  cases h <;> rfl

theorem Served.publish_failure (h : Served code r) (ha : ExitCode.Accepted code) :
    ((Hand.publish code).act r.id r.store).1 = none ↔ r.client.stage.isOver = false := by
  cases ho : r.client.stage.isOver with
  | false => simp [(h.sound.kept ho).publish_failure (not_removed_of_honest h.honest) ha]
  | true =>
    obtain ⟨e, hf⟩ := (Hand.publish code).act_of_gone (h.sound.gone ho)
    simp [hf]

theorem Served.step (h : Served code r) (ha : ExitCode.Accepted code)
    (ht : ∀ hand, turn = .other hand → hand = .publish code) (s : Steps turn r r') :
    Served code r' := by
  cases turn with
  | own m =>
    have hd := s.deeds_of_own
    exact ⟨h.sound.step s, hd ▸ h.honest, fun ho => hd ▸ h.heeded (s.isOver_of_isOver ho)⟩
  | other hand =>
    obtain rfl := ht hand rfl
    refine ⟨h.sound.step s, ?_, ?_⟩
    · cases s with
      | acts => simpa [or_imp, forall_and] using h.honest
    · cases s with
      | acts =>
        intro ho
        simpa [or_imp, forall_and, (h.publish_failure ha).mpr ho] using h.heeded ho

theorem served_run {start : Race} (h : Served code start) (ha : ExitCode.Accepted code)
    (turns : List Turn) (hh : ∀ hand ∈ Turn.hands turns, hand = .publish code) :
    Served code (start.run turns) := by
  apply run_induction h turns
  rintro turn ht r r' s hr
  apply hr.step ha _ s
  rintro hand rfl
  exact hh hand (List.mem_filterMap.mpr ⟨_, ht, rfl⟩)

theorem served_fresh {early : List Hand} (hh : ∀ hand ∈ early, hand = .publish code)
    (ha : ExitCode.Accepted code) (timeoutMs : Nat) (s : Store) :
    Served code (fresh early timeoutMs s) := by
  have hd := (kept_create s).heeded (by simp) ha hh
  refine ⟨sound_fresh early timeoutMs s, fun d hm => ?_, fun _ d hm => ?_⟩
  · rw [hd d hm]
  · rw [hd d hm]

/-! ### Who has done what -/

theorem hands_actAll (id : Int) (hands : List Hand) (s : Store) :
    (Hand.actAll id hands s).1.map Deed.hand = hands := by
  induction hands generalizing s with
  | nil => rfl
  | cons h rest ih => simp [Hand.actAll, ih]

/-- Others can always act: what they have done is what they had turns for. -/
theorem hands_run (turns : List Turn) (r : Race) :
    (r.run turns).deeds.map Deed.hand = r.deeds.map Deed.hand ++ Turn.hands turns := by
  induction turns using List.reverseRecOn with
  | nil => simp [Turn.hands]
  | append_singleton turns turn ih =>
    rw [Turn.hands_append, ← List.append_assoc, ← ih]
    cases turn with
    | other h => simp [run_concat, step, Turn.hands]
    | own m =>
      obtain hsame | hstep := run_concat_cases turns (.own m) r
      · simp [hsame, Turn.hands]
      · simp [hstep.deeds_of_own, Turn.hands]

theorem hands_fresh (early : List Hand) (timeoutMs : Nat) (s : Store) (turns : List Turn) :
    ((fresh early timeoutMs s).run turns).deeds.map Deed.hand = early ++ Turn.hands turns := by
  rw [hands_run]
  exact congrArg (· ++ Turn.hands turns) (hands_actAll _ _ _)

theorem deeds_run_other (turns : List Turn) (h : Hand) (r : Race) :
    (r.run (turns ++ [.other h])).deeds =
      (r.run turns).deeds ++ [⟨h, (h.act (r.run turns).id (r.run turns).store).1⟩] := by
  simp [run_concat, step, id]

/-! ### What the client reads -/

theorem Served.verdict (h : Served code r) (ha : ExitCode.Accepted code) {woken : Bool}
    (hs : r.client.stage = .reading woken) :
    r.verdict woken =
      if Published code r.deeds then .ok code else .error (.waitTimeout r.client.timeoutMs) := by
  have k := h.sound.kept (by simp [hs, Stage.isOver])
  have hv := k.value.trans (left_of_honest h.honest)
  obtain ⟨v, he, -⟩ := ha.encode?
  by_cases hp : Published code r.deeds
  · rw [if_pos hp, he] at hv
    rw [if_pos hp]
    have hread : r.store.read r.id = .ok v := by simp [Store.read, hv]
    cases woken <;> simp [Race.verdict, hread, judge, ExitCode.decode?_of_encode? he]
  · rw [if_neg hp] at hv
    rw [if_neg hp]
    have hread : r.store.read r.id = .ok 0 := by simp [Store.read, hv]
    cases woken with
    | false => simp [Race.verdict, hread, judge]
    | true =>
      -- The monitor would have had to see a value that nobody has stored.
      obtain ⟨d, hd, hf, -⟩ := h.sound.woken hs
      exact absurd (published_of_honest h.honest hd hf) hp

/-- An honest helper leaves the client no way to its end but the reading. -/
theorem exists_readsAfter {start : Race} {turns : List Turn} {o : Outcome}
    (hs : start.client.stage = .receiving)
    (h : ∀ before, before <+: turns → Served code (start.run before))
    (ho : (start.run turns).client.stage.outcome? = some o) :
    ∃ before woken, start.ReadsAfter turns before woken := by
  obtain ⟨before, woken, hr, -⟩ | ⟨before, e, hh, -⟩ := run_settled hs turns ho
  · exact ⟨before, woken, hr⟩
  · have hserved := h before ((List.prefix_append _ _).trans hh.isPrefix)
    exact absurd (hh.removed hserved.sound) (not_removed_of_honest hserved.honest)

section Fresh

variable {early : List Hand} {turns before : List Turn}

theorem served_before (ha : ExitCode.Accepted code)
    (hh : ∀ hand ∈ early ++ Turn.hands turns, hand = .publish code) (timeoutMs : Nat) (s : Store)
    (hb : before <+: turns) : Served code ((fresh early timeoutMs s).run before) := by
  have hearly : ∀ hand ∈ early, hand = .publish code :=
    fun hand hm => hh hand (List.mem_append_left _ hm)
  apply served_run (served_fresh hearly ha timeoutMs s) ha
  intro hand hm
  exact hh hand (List.mem_append_right _ ((hb.filterMap _).subset hm))

theorem published_iff_mem_hands {timeoutMs : Nat} {s : Store}
    (h : Served code ((fresh early timeoutMs s).run before))
    (ho : ((fresh early timeoutMs s).run before).client.stage.isOver = false) :
    Published code ((fresh early timeoutMs s).run before).deeds ↔
      .publish code ∈ early ++ Turn.hands before := by
  rw [← hands_fresh early timeoutMs s before]
  constructor
  · intro hp
    exact List.mem_map.mpr ⟨_, hp, rfl⟩
  · intro hm
    obtain ⟨d, hd, -⟩ := List.mem_map.mp hm
    exact published_of_honest h.honest hd (h.heeded ho d hd)

end Fresh

/-- With a helper that does nothing but publish the code, before the client waits or while it does,
a client that returns has read the counter, and it returns the code exactly if that had been
published by then. -/
theorem completion_exact (early : List Hand) (timeoutMs : Nat) (s : Store) (turns : List Turn)
    (code : Int32) (outcome : Outcome) (ha : ExitCode.Accepted code)
    (hh : ∀ hand ∈ early ++ Turn.hands turns, hand = .publish code)
    (h : ((fresh early timeoutMs s).run turns).result? = some outcome) :
    (∃ before woken, (fresh early timeoutMs s).ReadsAfter turns before woken) ∧
      ∀ before woken, (fresh early timeoutMs s).ReadsAfter turns before woken →
        (Published code ((fresh early timeoutMs s).run before).deeds ↔
          .publish code ∈ early ++ Turn.hands before) ∧
        outcome = if Published code ((fresh early timeoutMs s).run before).deeds then .ok code
          else .error (.waitTimeout timeoutMs) := by
  have ho := outcome?_of_result? h
  have hserved {before : List Turn} (hb : before <+: turns) := served_before ha hh timeoutMs s hb
  refine ⟨exists_readsAfter rfl (fun _ hb => hserved hb) ho, fun before woken hr => ?_⟩
  have hb := hserved hr.before_isPrefix
  refine ⟨published_iff_mem_hands hb (by simp [hr.stage, Stage.isOver]), ?_⟩
  rw [hr.outcome ho, hb.verdict ha hr.stage, (run_later before _).timeoutMs]
  rfl

/-- The helper publishes when the deadline has passed and the client has not looked yet. -/
theorem completion_exact_after_deadline :
    let turns : List Turn := [.own .monitorCalls, .own .monitorInterrupted, .own .deadline,
      .other (.publish 5), .own .read, .own .remove, .own .monitorCalls, .own .monitorSends,
      .own .join]
    ((fresh [] 0 .empty).run turns).result? = some (.ok 5) ∧
      ∀ before woken, (fresh [] 0 .empty).ReadsAfter turns before woken →
        .publish 5 ∈ Turn.hands before :=
  ⟨rfl, fun before woken hr => by
    have he := (completion_exact [] 0 .empty _ 5 (.ok 5) (by decide) (by decide) rfl).2 _ _ hr
    by_cases hp : Published 5 ((fresh [] 0 .empty).run before).deeds
    · exact he.1.mp hp
    · rw [if_neg hp] at he
      exact absurd he.2 (by simp)⟩

end Race

end HelperHandoff.Completion
