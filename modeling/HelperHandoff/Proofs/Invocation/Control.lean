import HelperHandoff.Command
import HelperHandoff.Invocation.Payload
import HelperHandoff.Proofs.Environment
import HelperHandoff.Proofs.Text.Utf8

/-!
The control variable leaves no trace. Pairs that bear its name may come and go, wherever they
stand and whatever their values: the context, what is reported while it is built, the message and
the helper's command are the same. Only a name that is no text can still be shown as the control
variable's, and then the control variable's own name has a replacement character in it.
-/

set_option autoImplicit false

namespace HelperHandoff

namespace Invocation

variable {control : String} {vars others : List (Bytes × Bytes)}

theorem mem_keep {p : Bytes × Bytes} :
    p ∈ keep control vars ↔ p ∈ vars ∧ p.1 ≠ Bytes.ofString control := by
  rw [keep, List.mem_filter, decide_eq_true_iff]

theorem ofPairs_congr (h : keep control vars = keep control others) (pid : UInt32)
    (argv : List Bytes) (cwd : Bytes) :
    ofPairs pid vars argv cwd control = ofPairs pid others argv cwd control := by
  simp only [ofPairs, h]

theorem lossEvents_congr (h : keep control vars = keep control others) (argv : List Bytes) :
    lossEvents vars argv control = lossEvents others argv control := by
  simp only [lossEvents, h]

theorem keep_map_split (entries : List Bytes) :
    keep control (entries.map Environment.split) =
      (entries.filter fun e => (Environment.split e).1 ≠ Bytes.ofString control).map
        Environment.split := by
  rw [keep, List.filter_map]
  rfl

theorem decode?_of_ne_lossy {b : Bytes} (h : b ≠ Bytes.ofString (Utf8.lossy b)) :
    Utf8.decode? b = none :=
  Utf8.decode?_eq_none_iff.mpr fun ht => h ht.ofString_lossy.symm

theorem control_mem_keys_iff (pid : UInt32) (argv : List Bytes) (cwd : Bytes) :
    control ∈ (ofPairs pid vars argv cwd control).environ.keys ↔
      ∃ p ∈ vars, p.1 ≠ Bytes.ofString control ∧
        Utf8.decode? p.1 = none ∧ Utf8.lossy p.1 = control := by
  simp only [ofPairs, SortedMap.mem_keys_ofPairs, List.map_map, List.mem_map, mem_keep,
    Function.comp_apply]
  constructor
  · rintro ⟨p, ⟨hp, hne⟩, rfl⟩
    exact ⟨p, hp, hne, decode?_of_ne_lossy hne, rfl⟩
  · rintro ⟨p, hp, hne, -, hl⟩
    exact ⟨p, ⟨hp, hne⟩, hl⟩

theorem control_not_mem_keys (h : Utf8.replacement ∉ control.toList) (pid : UInt32)
    (argv : List Bytes) (cwd : Bytes) :
    control ∉ (ofPairs pid vars argv cwd control).environ.keys := by
  rw [control_mem_keys_iff]
  rintro ⟨p, -, -, hd, rfl⟩
  exact h (Utf8.replacement_mem_lossy hd)

/-- Two environments that agree but for the control variable's entries cannot be told apart by what
is sent, reported or started; nor does its name come up there, but for one that is no text. -/
theorem control_invisible (control : String) :
    (∀ (pid : UInt32) (vars others : List (Bytes × Bytes)) (argv : List Bytes)
      (cwd program socket : Bytes) (semid : Int32),
      vars.filter (fun p => p.1 ≠ Bytes.ofString control) =
          others.filter (fun p => p.1 ≠ Bytes.ofString control) →
        ofPairs pid vars argv cwd control = ofPairs pid others argv cwd control ∧
        lossEvents vars argv control = lossEvents others argv control ∧
        ((ofPairs pid vars argv cwd control).payload semid).bytes =
          ((ofPairs pid others argv cwd control).payload semid).bytes ∧
        Command.helper program socket (ofPairs pid vars argv cwd control).spawnEnv =
          Command.helper program socket (ofPairs pid others argv cwd control).spawnEnv) ∧
    (∀ (pid : UInt32) (entries others : List Bytes) (argv : List Bytes)
      (cwd program socket : Bytes) (semid : Int32),
      entries.filter (fun e => (Environment.split e).1 ≠ Bytes.ofString control) =
          others.filter (fun e => (Environment.split e).1 ≠ Bytes.ofString control) →
        ofEntries pid entries argv cwd control = ofEntries pid others argv cwd control ∧
        lossEvents (entries.map Environment.split) argv control =
          lossEvents (others.map Environment.split) argv control ∧
        ((ofEntries pid entries argv cwd control).payload semid).bytes =
          ((ofEntries pid others argv cwd control).payload semid).bytes ∧
        Command.helper program socket (ofEntries pid entries argv cwd control).spawnEnv =
          Command.helper program socket (ofEntries pid others argv cwd control).spawnEnv) ∧
    (∀ (pid : UInt32) (vars : List (Bytes × Bytes)) (argv : List Bytes) (cwd : Bytes),
      (∀ p ∈ (ofPairs pid vars argv cwd control).spawnEnv, p.1 ≠ Bytes.ofString control) ∧
      (control ∈ (ofPairs pid vars argv cwd control).environ.keys ↔
        ∃ p ∈ vars, p.1 ≠ Bytes.ofString control ∧
          Utf8.decode? p.1 = none ∧ Utf8.lossy p.1 = control) ∧
      (Utf8.replacement ∉ control.toList →
        control ∉ (ofPairs pid vars argv cwd control).environ.keys)) ∧
    (∀ (pid : UInt32) (vars : List (Bytes × Bytes)) (argv : List Bytes) (cwd : Bytes),
      Protocol.controlVariable ∉
        (ofPairs pid vars argv cwd Protocol.controlVariable).environ.keys) ∧
    ∀ entry : Bytes, Bytes.ofString control ≠ [] →
      Bytes.equalsSign ∉ (Bytes.ofString control).drop 1 →
      ((Environment.split entry).1 = Bytes.ofString control ↔
        entry = Bytes.ofString control ∨
          ∃ value, entry = Environment.join (Bytes.ofString control) value) := by
  refine ⟨?_, ?_, ?_, fun pid vars argv cwd => control_not_mem_keys (by decide) pid argv cwd,
    fun entry hne hsep => Environment.split_name_iff hne hsep⟩
  · intro pid vars others argv cwd program socket semid h
    have hc := ofPairs_congr h pid argv cwd
    exact ⟨hc, lossEvents_congr h argv, by rw [hc], by rw [hc]⟩
  · intro pid entries others argv cwd program socket semid h
    have hk : keep control (entries.map Environment.split) =
        keep control (others.map Environment.split) := by
      rw [keep_map_split, keep_map_split, h]
    have hc : ofEntries pid entries argv cwd control = ofEntries pid others argv cwd control :=
      ofPairs_congr hk pid argv cwd
    exact ⟨hc, lossEvents_congr hk argv, by rw [hc], by rw [hc]⟩
  · intro pid vars argv cwd
    refine ⟨fun p hp => (mem_keep.mp hp).2, control_mem_keys_iff pid argv cwd, fun h => ?_⟩
    exact control_not_mem_keys h pid argv cwd

end Invocation

end HelperHandoff
