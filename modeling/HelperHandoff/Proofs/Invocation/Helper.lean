import HelperHandoff.Client
import HelperHandoff.Proofs.Invocation.Control
import HelperHandoff.Proofs.SortedMap

/-!
The environment of a helper that a client starts never shows the control variable, however the
client's own entries are written. So a helper takes its own way: it hands nothing off in its turn,
and no helper starts another.
-/

set_option autoImplicit false

namespace HelperHandoff

namespace Invocation

/-- The context of an invocation whose environment has these entries, captured from the process or
built from the entries themselves. -/
def TakenFrom (entries : List Bytes) (control : String) (i : Invocation) : Prop :=
  (∃ p : ProcessView, p.env = entries ∧ capture p control = .ok i) ∨
    ∃ pid argv cwd, i = ofEntries pid entries argv cwd control

variable {control : String} {entries : List Bytes} {p : ProcessView} {i : Invocation}

theorem capture_eq_ok_iff :
    capture p control = .ok i ↔
      ∃ cwd, p.cwd = .ok cwd ∧
        i = ofPairs p.pid (Environment.pairs p.env) p.argv cwd control := by
  unfold capture
  cases p.cwd <;> simp [eq_comm]

theorem spawnEnv_ofPairs (pid : UInt32) (vars : List (Bytes × Bytes)) (argv : List Bytes)
    (cwd : Bytes) : (ofPairs pid vars argv cwd control).spawnEnv = keep control vars := rfl

theorem spawnEnv_of_capture (h : capture p control = .ok i) :
    i.spawnEnv = keep control (Environment.pairs p.env) := by
  obtain ⟨cwd, -, rfl⟩ := capture_eq_ok_iff.mp h
  rfl

theorem TakenFrom.mem_spawnEnv (h : TakenFrom entries control i) {v : Bytes × Bytes}
    (hv : v ∈ i.spawnEnv) :
    v.1 ≠ Bytes.ofString control ∧ ∃ entry ∈ entries, Environment.split entry = v := by
  obtain ⟨p, rfl, hc⟩ | ⟨pid, argv, cwd, rfl⟩ := h
  · rw [spawnEnv_of_capture hc, mem_keep] at hv
    obtain ⟨-, -, hentry⟩ := Environment.mem_pairs hv.1
    exact ⟨hv.2, hentry⟩
  · rw [ofEntries, spawnEnv_ofPairs, mem_keep] at hv
    exact ⟨hv.2, List.mem_map.mp hv.1⟩

end Invocation

namespace Bytes

theorem hasNul_eq_false_iff {b : Bytes} : b.hasNul = false ↔ nul ∉ b := by
  simp [hasNul]

end Bytes

namespace Command

variable {program socket : Bytes} {spawnEnv : List (Bytes × Bytes)}

theorem entries_helper (program socket : Bytes) (spawnEnv : List (Bytes × Bytes))
    (own : List Bytes) :
    (helper program socket spawnEnv).entries own =
      Environment.render (SortedMap.ofPairs spawnEnv).entries := rfl

theorem hasNul_helper (hp : program.hasNul = false) (hs : socket.hasNul = false)
    (hv : ∀ v ∈ spawnEnv, v.1.hasNul = false ∧ v.2.hasNul = false) :
    (helper program socket spawnEnv).hasNul = false := by
  have hsub : (Bytes.ofString Protocol.helperSubcommand).hasNul = false := by decide
  have hflag : (Bytes.ofString Protocol.socketFlag).hasNul = false := by decide
  have hvars : ∀ v ∈ (SortedMap.ofPairs spawnEnv).entries,
      v.1.hasNul = false ∧ v.2.hasNul = false :=
    fun v hm => hv v (SortedMap.mem_of_mem_ofPairs hm)
  have hargv : (helper program socket spawnEnv).argv.any Bytes.hasNul = false := by
    simp [argv, helper, hp, hs, hsub, hflag]
  have hany : ((helper program socket spawnEnv).vars.any fun v => v.1.hasNul || v.2.hasNul) =
      false := by
    rw [List.any_eq_false]
    intro v hm
    simp [hvars v hm]
  rw [hasNul, hargv, hany]
  simp [helper, hp]

end Command

namespace Client

variable {σ κ φ : Type}

/-- A process that takes its own way. It hands nothing off, and all that it asks for is to become
its payload, with the argument vector and the environment that it was given. -/
structure KeepsOut (O : Outside σ κ φ) (p : ProcessView) (state : σ) (store : Counter.Store) :
    Prop where
  handoff : (run O p state store).handoff? = none
  acts : (run O p state store).acts =
    [.report (.payloadExec (payloadCommand O p state).program),
      .execute (O.execFailure (payloadCommand O p state) state)]
  ending : O.execFailure (payloadCommand O p state) state = none →
    (run O p state store).ending? = some (.becomes (payloadCommand O p state))
  argv : (payloadCommand O p state).argv = p.argv
  entries : (payloadCommand O p state).entries p.env = p.env

theorem keepsOut_of_not_requested {p : ProcessView} (h : Invocation.requested p.env = false)
    (hargv : p.argv ≠ []) (O : Outside σ κ φ) (state : σ) (store : Counter.Store) :
    KeepsOut O p state store := by
  have hrun : run O p state store = execute O p state := by simp [run, h]
  obtain ⟨arg0, args, ha⟩ := List.exists_cons_of_ne_nil hargv
  refine ⟨?_, ?_, fun hf => ?_, ?_, rfl⟩
  · rw [hrun, execute]
    cases O.execFailure (payloadCommand O p state) state <;> rfl
  · rw [hrun, execute]
    cases O.execFailure (payloadCommand O p state) state <;> rfl
  · rw [hrun, execute, hf]
  · simp [payloadCommand, Command.payload, Command.argv, ha]

end Client

namespace Invocation

theorem TakenFrom.not_requested {entries : List Bytes} {i : Invocation}
    (h : TakenFrom entries Protocol.controlVariable i) (program socket : Bytes)
    (own : List Bytes) :
    requested ((Command.helper program socket i.spawnEnv).entries own) = false := by
  have hnone : Environment.lookup (Bytes.ofString Protocol.controlVariable)
      (Environment.render (SortedMap.ofPairs i.spawnEnv).entries) = none := by
    refine Environment.lookup_render_eq_none (by decide) (by decide) (by decide) fun v hv => ?_
    obtain ⟨hne, entry, -, rfl⟩ := h.mem_spawnEnv (SortedMap.mem_of_mem_ofPairs hv)
    exact ⟨Environment.isName_split entry, hne⟩
  rw [requested, Command.entries_helper, hnone]
  rfl

/-- A helper that is started by a client is no client: whatever environment the client has found,
the helper's command can be started, and a process that is started by it takes its own way and runs
the payload as a helper. -/
theorem started_helper_keepsOut (entries : List Bytes) (i : Invocation) (program socket : Bytes)
    (hentries : ∀ entry ∈ entries, entry.hasNul = false)
    (hprogram : program.hasNul = false) (hsocket : socket.hasNul = false)
    (h : TakenFrom entries Protocol.controlVariable i) :
    let c := Command.helper program socket i.spawnEnv
    c.hasNul = false ∧
      c.argv = [program, Bytes.ofString "helper", Bytes.ofString "--socket", socket] ∧
      ∀ own : List Bytes, requested (c.entries own) = false ∧
        ∀ (σ κ φ : Type) (O : Outside σ κ φ) (view : ProcessView) (state : σ)
          (store : Counter.Store),
          Client.KeepsOut O { view with env := c.entries own, argv := c.argv } state store := by
  have hvars : ∀ v ∈ i.spawnEnv, v.1.hasNul = false ∧ v.2.hasNul = false := by
    intro v hv
    obtain ⟨-, entry, he, rfl⟩ := h.mem_spawnEnv hv
    have hnul := Bytes.hasNul_eq_false_iff.mp (hentries entry he)
    simp only [Bytes.hasNul_eq_false_iff]
    exact ⟨fun hm => hnul (Environment.mem_of_mem_split (.inl hm)),
      fun hm => hnul (Environment.mem_of_mem_split (.inr hm))⟩
  refine ⟨Command.hasNul_helper hprogram hsocket hvars, rfl, fun own => ?_⟩
  have hr := h.not_requested program socket own
  exact ⟨hr, fun σ κ φ O view state store =>
    Client.keepsOut_of_not_requested hr (List.cons_ne_nil _ _) O state store⟩

/-- The control variable twice, once without a value, and a name that starts with an equals sign and
goes on like it. -/
theorem started_helper_keepsOut_disguised :
    let entries := ["KART_USE_HELPER=1", "KART_USE_HELPER", "=KART_USE_HELPER=1", "", "A"].map
      Bytes.ofString
    let i := ofEntries 1 entries [] [] Protocol.controlVariable
    let c := Command.helper [47] [47, 115] i.spawnEnv
    (∀ entry ∈ entries, entry.hasNul = false) ∧ Bytes.hasNul [47] = false ∧
      Bytes.hasNul [47, 115] = false ∧ TakenFrom entries Protocol.controlVariable i ∧
      c.entries [] = ["=", "=KART_USE_HELPER=1", "A="].map Bytes.ofString ∧
      c.hasNul = false ∧ requested (c.entries []) = false := by
  intro entries i c
  have hentries : ∀ entry ∈ entries, entry.hasNul = false := by decide
  have h : TakenFrom entries Protocol.controlVariable i := .inr ⟨1, [], [], rfl⟩
  obtain ⟨hnul, -, hown⟩ :=
    started_helper_keepsOut entries i [47] [47, 115] hentries (by decide) (by decide) h
  exact ⟨hentries, by decide, by decide, h, by decide, hnul, (hown []).1⟩

end Invocation

end HelperHandoff
