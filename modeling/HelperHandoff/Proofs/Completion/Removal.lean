import HelperHandoff.Counter.Session
import HelperHandoff.Proofs.Completion.Progress

/-!
A counter that others remove while its owner waits for it. The client can come upon the removal in
three places: its monitor's wait fails, or it reads the counter, having been woken or having let its
deadline pass. In the first two it says that the counter is lost. In the third a reading that fails
is taken for the resting value, and the client says that nobody has answered.
-/

set_option autoImplicit false

namespace HelperHandoff.Completion.Race

open Counter (Session Store)

/-- Whatever turns follow, the client returns this outcome or has not returned yet; and it does
return once they are enough. -/
structure Bound (r : Race) (turns : List Turn) (o : Outcome) : Prop where
  only : ∀ later o', (r.run (turns ++ later)).result? = some o' → o' = o
  returns : ∀ later, (r.run (turns ++ later ++ closing)).result? = some o

variable {r : Race} {turns : List Turn}

theorem bound_of_outcome? {o : Outcome} (h : Sound r)
    (ho : (r.run turns).client.stage.outcome? = some o) : r.Bound turns o := by
  have hkept (later : List Turn) : (r.run (turns ++ later)).client.stage.outcome? = some o := by
    rw [run_append]
    exact (run_later later _).outcome? o ho
  refine ⟨fun later o' hr => ?_, fun later => ?_⟩
  · have hsame := outcome?_of_result? hr
    rw [hkept later] at hsame
    exact (Option.some.inj hsame).symm
  · have hend := (run_sound h (turns ++ later)).closing
    rw [← run_append] at hend
    have hout := hkept (later ++ closing)
    rw [← List.append_assoc] at hout
    exact result?_of_outcome? hout hend

/-! ### What a reading comes to -/

theorem Sound.verdict_of_removed (h : Sound r) {woken : Bool}
    (hs : r.client.stage = .reading woken) (hr : Removed r.deeds) :
    r.verdict woken = .error
      (if woken then .counterLost (.system .invalidArgument)
        else .waitTimeout r.client.timeoutMs) := by
  have hgone := (h.kept (by simp [hs, Stage.isOver])).gone_iff.mpr hr
  have hread : r.store.read r.id = .error .invalidArgument := by simp [Store.read, hgone]
  cases woken <;> simp [verdict, hread, judge]

theorem Sound.of_timeout (h : Sound r) {woken : Bool} (hs : r.client.stage = .reading woken)
    {waited : Nat} (hv : r.verdict woken = .error (.waitTimeout waited)) :
    woken = false ∧ waited = r.client.timeoutMs ∧
      (r.store.value? r.id = some 0 ∨ Removed r.deeds) := by
  have k := h.kept (by simp [hs, Stage.isOver])
  cases hval : r.store.value? r.id with
  | none =>
    have hr : Removed r.deeds := k.gone_iff.mp hval
    rw [h.verdict_of_removed hs hr] at hv
    cases woken with
    | true => simp at hv
    | false =>
      have hw : r.client.timeoutMs = waited := by simpa using hv
      exact ⟨rfl, hw.symm, .inr hr⟩
  | some v =>
    have hread : r.store.read r.id = .ok v := by simp [Store.read, hval]
    by_cases hz : v = 0
    · subst hz
      cases woken with
      | true => simp [verdict, hread, judge] at hv
      | false =>
        have hw : r.client.timeoutMs = waited := by simpa [verdict, hread, judge] using hv
        exact ⟨rfl, hw.symm, .inl rfl⟩
    · -- Any other value stands for a code.
      have hd := ExitCode.decode?_of_ne_zero hz
      cases woken <;> simp [verdict, hread, judge, hd] at hv

/-! ### The three places -/

/-- A client reports a timeout only if it has let its deadline pass and then found its counter at
rest, or found it gone. A removal that its monitor tells it of, or that it finds when it has been
woken, it reports as a loss; one that it finds after the deadline, as a timeout. -/
theorem removal_noticed (early : List Hand) (timeoutMs : Nat) (s : Store) (turns : List Turn) :
    let r := fresh early timeoutMs s
    (∀ waited, (r.run turns).result? = some (.error (.waitTimeout waited)) →
      waited = timeoutMs ∧ ∃ before, r.ReadsAfter turns before false ∧
        ((r.run before).store.value? r.id = some 0 ∨ Removed (r.run before).deeds)) ∧
    (∀ before e, r.HearsAfter turns before e →
      Removed (r.run before).deeds ∧ r.Bound turns (.error (.counterLost (.system e)))) ∧
    (∀ before, r.ReadsAfter turns before true → Removed (r.run before).deeds →
      r.Bound turns (.error (.counterLost (.system .invalidArgument)))) ∧
    ∀ before, r.ReadsAfter turns before false → Removed (r.run before).deeds →
      r.Bound turns (.error (.waitTimeout timeoutMs)) := by
  intro r
  have hstart : Sound r := sound_fresh early timeoutMs s
  have hsound := run_sound hstart
  have hid (turns : List Turn) : (r.run turns).id = r.id := (run_later turns r).id
  have hms (turns : List Turn) : (r.run turns).client.timeoutMs = timeoutMs :=
    (run_later turns r).timeoutMs
  refine ⟨fun waited hw => ?_, fun before e hh => ?_, fun before hr hgone => ?_,
    fun before hr hgone => ?_⟩
  · obtain ⟨before, woken, hr, hv⟩ | ⟨before, e, -, hv⟩ :=
      run_settled rfl turns (outcome?_of_result? hw)
    · obtain ⟨rfl, hwaited, hfound⟩ := (hsound before).of_timeout hr.stage hv.symm
      rw [hms] at hwaited
      rw [hid] at hfound
      exact ⟨hwaited, before, hr, hfound⟩
    · simp at hv
  · exact ⟨hh.removed (hsound before), bound_of_outcome? hstart hh.outcome?⟩
  · have hv := (hsound before).verdict_of_removed hr.stage hgone
    exact bound_of_outcome? hstart (hr.outcome?.trans (congrArg some hv))
  · have hv := (hsound before).verdict_of_removed hr.stage hgone
    rw [hms] at hv
    exact bound_of_outcome? hstart (hr.outcome?.trans (congrArg some hv))

/-- One removal for each of the three places, and a helper that is silent indeed. -/
theorem removal_noticed_everywhere :
    let r := fresh [] 100 .empty
    let hears : List Turn := [.own .monitorCalls, .other .remove, .own .monitorSends]
    let wakes : List Turn := [.own .monitorCalls, .other (.publish 7), .own .monitorSends,
      .own .receive, .other .remove]
    let expires : List Turn := [.own .monitorCalls, .other .remove, .own .deadline]
    let silent : List Turn := [.own .deadline, .own .read, .own .remove, .own .monitorCalls,
      .own .monitorSends, .own .join]
    r.Bound (hears ++ [.own .receive]) (.error (.counterLost (.system .identifierRemoved))) ∧
      r.Bound (wakes ++ [.own .read]) (.error (.counterLost (.system .invalidArgument))) ∧
      r.Bound (expires ++ [.own .read]) (.error (.waitTimeout 100)) ∧
      (r.run silent).result? = some (.error (.waitTimeout 100)) ∧
      ∃ before, r.ReadsAfter silent before false ∧
        ((r.run before).store.value? r.id = some 0 ∨ Removed (r.run before).deeds) := by
  intro r hears wakes expires silent
  have hheard := (removal_noticed [] 100 .empty (hears ++ [.own .receive])).2.1 hears
    .identifierRemoved ⟨List.prefix_refl _, rfl, rfl⟩
  have hwoken := (removal_noticed [] 100 .empty (wakes ++ [.own .read])).2.2.1 wakes
    ⟨List.prefix_refl _, rfl⟩ (by decide)
  have hexpired := (removal_noticed [] 100 .empty (expires ++ [.own .read])).2.2.2 expires
    ⟨List.prefix_refl _, rfl⟩ (by decide)
  have hsilent := (removal_noticed [] 100 .empty silent).1 100 rfl
  exact ⟨hheard.2, hwoken, hexpired, rfl, hsilent.2⟩

/-- A counter that is gone before its owner looks, and an owner that cannot wait: the removal is not
told from silence. -/
theorem timeout_of_removed :
    let r := fresh [.remove] 0 .empty
    let turns : List Turn := [.own .deadline, .own .read, .own .remove]
    (r.ReadsAfter turns [.own .deadline] false ∧ Removed (r.run [.own .deadline]).deeds ∧
        (r.run [.own .deadline]).store.value? r.id ≠ some 0 ∧
        (r.run turns).result? = some (.error (.waitTimeout 0))) ∧
      (Session.empty.run [.create, .hand 0 .remove, .complete 0 0 none]).map (·.answer) =
        [.done, .done, .completed (some (.error (.waitTimeout 0))) none] :=
  ⟨⟨⟨by decide, rfl⟩, by decide, by decide, rfl⟩, rfl⟩

end HelperHandoff.Completion.Race
