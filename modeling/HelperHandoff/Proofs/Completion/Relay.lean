import HelperHandoff.Client
import HelperHandoff.Proofs.Completion.Progress

/-!
An exit code on its way from a helper to the exit status of a client. A counter takes the code, or
refuses it and stays as it was; whoever reads a code that was taken returns it, and the status of
the client tells it as far as a byte can.
-/

set_option autoImplicit false

namespace HelperHandoff

open Counter (InRange Store)

namespace Counter.Store

variable {s : Store} {id : Int} {code : Int32}

theorem publish_cases (code : Int32) (hl : s.live id) :
    (ExitCode.Accepted code ∧ ∃ v, ExitCode.encode? code = some v ∧ InRange v ∧
      s.publish id code = (none, s.settle id (some v))) ∨
    ¬ ExitCode.Accepted code ∧ s.publish id code = (some .outOfRange, s) := by
  cases he : ExitCode.encode? code with
  | none =>
    refine .inr ⟨fun ha => ?_, by simp [publish, he]⟩
    obtain ⟨v, hv, -⟩ := ha.encode?
    rw [he] at hv
    cases hv
  | some v =>
    by_cases hr : InRange v
    · have ha := ExitCode.accepted_of_encode? he hr
      exact .inl ⟨ha, v, rfl, hr, by simp [publish, he, set_of_live hl hr]⟩
    · have hn : ¬ id < 0 := Int.not_lt.mpr (nonneg_of_live hl)
      refine .inr ⟨fun ha => ?_, by simp [publish, he, set, hn, hr]⟩
      obtain ⟨w, hw, hin⟩ := ha.encode?
      rw [he, Option.some.injEq] at hw
      exact hr (hw ▸ hin)

theorem value?_of_publish (hp : (s.publish id code).1 = none) :
    ∃ v, (s.publish id code).2.value? id = some v ∧ ExitCode.encode? code = some v ∧ InRange v := by
  cases he : ExitCode.encode? code with
  | none => simp [publish, he] at hp
  | some v =>
    obtain ⟨e, hs⟩ | ⟨hl, hr, hs⟩ := s.set_cases id v
    · simp [publish, he, hs] at hp
    · refine ⟨v, ?_, rfl, hr⟩
      simp only [publish, he, hs]
      exact value?_settle_self hl _

end Counter.Store

namespace Completion

namespace Race

/-- The client is about to look at its counter, and will find this value there. -/
structure Finds (r : Race) (v : Int32) : Prop where
  stage : ∃ woken, r.client.stage = .reading woken
  value : r.store.value? r.id = some v

variable {r : Race} {v code : Int32}

theorem verdict_of_decode? (hv : r.store.value? r.id = some v)
    (hd : ExitCode.decode? v = some code) (woken : Bool) : r.verdict woken = .ok code := by
  have hread : r.store.read r.id = .ok v := by simp [Store.read, hv]
  cases woken <;> simp [verdict, hread, judge, hd]

theorem Finds.outcome? (h : r.Finds v) (hd : ExitCode.decode? v = some code) (later : List Turn) :
    (r.run (.own .read :: later)).client.stage.outcome? = some (.ok code) := by
  obtain ⟨woken, hs⟩ := h.stage
  have hread : (r.run [.own .read]).client.stage.outcome? = some (.ok code) := by
    rw [run_of_steps (.reads hs), ← verdict_of_decode? h.value hd woken]
    rfl
  have happend : r.run (.own .read :: later) = (r.run [.own .read]).run later :=
    run_append [.own .read] later r
  rw [happend]
  exact (run_later later _).outcome? _ hread

example : ((fresh [.publish 7] 50 .empty).run [.own .deadline]).Finds 1007 := ⟨⟨false, rfl⟩, rfl⟩

end Race

/-- What becomes of a code that was taken as the value `v`. -/
structure Relayed (v code : Int32) : Prop where
  signals : v.toInt ≠ Protocol.counterResting
  exact : ExitCode.Exact v code
  returned : ∀ early timeoutMs s before later o,
    ((Race.fresh early timeoutMs s).run before).Finds v →
    ((Race.fresh early timeoutMs s).run (before ++ .own .read :: later)).result? = some o →
    o = .ok code
  returns : ∀ early timeoutMs s before later,
    ((Race.fresh early timeoutMs s).run before).Finds v →
    ((Race.fresh early timeoutMs s).run (before ++ .own .read :: (later ++ Race.closing))).result? =
      some (.ok code)
  exits : Client.endingOf (.ok code) = .exits (ExitCode.statusByte code) ""

theorem relayed_of_decode? {v code : Int32} (hr : InRange v) (hd : ExitCode.decode? v = some code) :
    Relayed v code := by
  have hread {early timeoutMs s before} (h : ((Race.fresh early timeoutMs s).run before).Finds v)
      (later : List Turn) :
      ((Race.fresh early timeoutMs s).run (before ++ .own .read :: later)).client.stage.outcome? =
        some (.ok code) := by
    rw [Race.run_append]
    exact h.outcome? hd later
  refine ⟨fun hz => ?_, ExitCode.exact_of_decode? hr hd, ?_, ?_, rfl⟩
  · exact (ExitCode.toInt_of_decode? hr hd).1 (Int32.toInt_inj.mp hz)
  · intro early timeoutMs s before later o h ho
    have hcode := hread h later
    rw [Race.outcome?_of_result? ho] at hcode
    exact Option.some.inj hcode
  · intro early timeoutMs s before later h
    have hsound := Race.run_sound (Race.sound_fresh early timeoutMs s)
      (before ++ .own .read :: later)
    have hend := hsound.closing
    rw [← Race.run_append, List.append_assoc, List.cons_append] at hend
    exact Race.result?_of_outcome? (hread h _) hend

/-- A counter that exists, whatever it holds, takes the codes from -999 to 31767 and no other. A
code that it takes reaches the status of the client unchanged, and no two of them look alike in a
counter; one that it refuses leaves it alone. Nor is there any other value that somebody could have
left in a counter and that would lose something on the way to a status. -/
theorem publish_relayed (s : Store) (id : Int) (code : Int32) (h : s.live id) :
    ((s.publish id code).1 = none ↔ -999 ≤ code.toInt ∧ code.toInt ≤ 31767) ∧
      ((s.publish id code).1 = none →
        ∃ v, (s.publish id code).2.value? id = some v ∧ Relayed v code) ∧
      ((s.publish id code).1 ≠ none → s.publish id code = (some .outOfRange, s)) ∧
      (∀ (t : Store) (j : Int) (other : Int32), (s.publish id code).1 = none →
        (t.publish j other).1 = none → other ≠ code →
        (t.publish j other).2.value? j ≠ (s.publish id code).2.value? id) ∧
      ∀ v : Int32, 1 ≤ v.toInt → v.toInt ≤ 32767 → ∃ code, ExitCode.Exact v code := by
  refine ⟨?_, ?_, ?_, ?_, ?_⟩
  · obtain ⟨ha, v, -, -, hs⟩ | ⟨hn, hs⟩ := Store.publish_cases code h
    · exact iff_of_true (by rw [hs]) ha
    · exact iff_of_false (by simp [hs]) hn
  · intro hp
    obtain ⟨v, hv, he, hr⟩ := Store.value?_of_publish hp
    exact ⟨v, hv, relayed_of_decode? hr (ExitCode.decode?_of_encode? he)⟩
  · intro hp
    obtain ⟨-, v, -, -, hs⟩ | ⟨-, hs⟩ := Store.publish_cases code h
    · exact absurd (by rw [hs]) hp
    · exact hs
  · intro t j other hp ho hne heq
    obtain ⟨v, hv, he, -⟩ := Store.value?_of_publish hp
    obtain ⟨w, hw, hf, -⟩ := Store.value?_of_publish ho
    rw [hv, hw, Option.some.injEq] at heq
    -- Both values decode, to two codes.
    have hcode := ExitCode.decode?_of_encode? he
    rw [← heq, ExitCode.decode?_of_encode? hf] at hcode
    exact hne (Option.some.inj hcode)
  · intro v h1 hu
    refine ExitCode.exists_exact ⟨by omega, hu⟩ ?_
    rintro rfl
    simp at h1

/-- The lowest code of all, in a counter that holds another one already; and the one below it. -/
theorem publish_relayed_lowest :
    let s : Store := ⟨[none, some 1005], []⟩
    s.live 1 = true ∧ (∃ v, (s.publish 1 (-999)).2.value? 1 = some v ∧ Relayed v (-999)) ∧
      s.publish 1 (-1000) = (some .outOfRange, s) :=
  ⟨rfl, (publish_relayed ⟨[none, some 1005], []⟩ 1 (-999) rfl).2.1 rfl,
    (publish_relayed ⟨[none, some 1005], []⟩ 1 (-1000) rfl).2.2.1 (by decide)⟩

end Completion

end HelperHandoff
