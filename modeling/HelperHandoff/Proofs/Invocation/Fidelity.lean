import HelperHandoff.Proofs.Invocation.Control
import HelperHandoff.Proofs.SortedMap

/-!
What gets into an invocation of the strings it is made from. The pairs for a helper are those that
were given, but for the control variable's. The environment as text shows under each name the last
value that was given under it; a string that is no text is shown as near as can be, and one event
says so. Where there is no such event nothing is lost, and the pairs may come in any order in which
those with one name keep theirs.
-/

set_option autoImplicit false

namespace HelperHandoff.Invocation

open Utf8 (IsText lossy)

variable {control : String} {vars others : List (Bytes × Bytes)} {argv : List Bytes}

/-! ### Events -/

/-- The strings that have to become text, in the order of their turn, each with its label. -/
def labelled (kept : List (Bytes × Bytes)) (argv : List Bytes) : List (String × Bytes) :=
  (kept.flatMap fun p => [("environ name", p.1), ("environ value", p.2)]) ++
    argv.map fun a => ("argv", a)

def lossLines (strings : List (String × Bytes)) : List (String × List (String × FieldValue)) :=
  (strings.filter fun x => ¬ IsText x.2).map fun x =>
    ("lossy_conversion", [("field", .text x.1)])

theorem lossLines_append (a b : List (String × Bytes)) :
    lossLines (a ++ b) = lossLines a ++ lossLines b := by
  rw [lossLines, List.filter_append, List.map_append]
  rfl

theorem lossOf_eq_nil_iff {part : TextPart} {b : Bytes} : lossOf part b = [] ↔ IsText b := by
  rw [Utf8.isText_iff, lossOf]
  cases Utf8.decode? b <;> simp

theorem lines_lossOf (part : TextPart) (b : Bytes) :
    ((lossOf part b).map fun e => (e.name, e.fields)) = lossLines [(part.name, b)] := by
  by_cases hb : IsText b
  · simp [lossOf_eq_nil_iff.mpr hb, lossLines, hb]
  · have hl : lossOf part b = [.lossyConversion part] := by
      rw [lossOf, Utf8.decode?_eq_none_iff.mpr hb]
    simp [hl, lossLines, hb, Event.name, Event.fields]

theorem lines_pairs (kept : List (Bytes × Bytes)) :
    ((kept.flatMap fun p => lossOf .environName p.1 ++ lossOf .environValue p.2).map
      fun e => (e.name, e.fields)) = lossLines (labelled kept []) := by
  induction kept with
  | nil => rfl
  | cons p kept ih =>
    have hsplit : labelled (p :: kept) [] =
        [("environ name", p.1)] ++ [("environ value", p.2)] ++ labelled kept [] := rfl
    rw [List.flatMap_cons, List.map_append, List.map_append, ih, lines_lossOf, lines_lossOf, hsplit,
      lossLines_append, lossLines_append]
    rfl

theorem lines_arguments (argv : List Bytes) :
    ((argv.flatMap (lossOf .argument)).map fun e => (e.name, e.fields)) =
      lossLines (argv.map fun a => ("argv", a)) := by
  induction argv with
  | nil => rfl
  | cons a argv ih =>
    have hsplit : ((a :: argv).map fun a => ("argv", a)) =
        [("argv", a)] ++ argv.map fun a => ("argv", a) := rfl
    rw [List.flatMap_cons, List.map_append, ih, lines_lossOf, hsplit, lossLines_append]
    rfl

theorem lines_lossEvents (vars : List (Bytes × Bytes)) (argv : List Bytes) (control : String) :
    ((lossEvents vars argv control).map fun e => (e.name, e.fields)) =
      lossLines (labelled (keep control vars) argv) := by
  have hsplit : labelled (keep control vars) argv =
      labelled (keep control vars) [] ++ argv.map fun a => ("argv", a) := by
    simp [labelled]
  rw [lossEvents, List.map_append, lines_pairs, lines_arguments, hsplit, lossLines_append]

theorem lossEvents_eq_nil_iff : lossEvents vars argv control = [] ↔
    (∀ p ∈ keep control vars, IsText p.1 ∧ IsText p.2) ∧ ∀ a ∈ argv, IsText a := by
  simp only [lossEvents, List.append_eq_nil_iff, List.flatMap_eq_nil_iff, lossOf_eq_nil_iff]

/-! ### The environment as text -/

theorem get?_environ (pid : UInt32) (vars : List (Bytes × Bytes)) (argv : List Bytes)
    (cwd : Bytes) (control k : String) :
    (ofPairs pid vars argv cwd control).environ.get? k =
      (((keep control vars).filter fun p => lossy p.1 = k).getLast?).map fun p => lossy p.2 :=
  SortedMap.get?_ofPairs_map _ _ _ _

theorem filter_lossy {ps : List (Bytes × Bytes)} (h : ∀ p ∈ ps, IsText p.1) (k : String) :
    (ps.filter fun p => lossy p.1 = k) = ps.filter fun p => p.1 = Bytes.ofString k :=
  List.filter_congr fun p hp => by simp only [(h p hp).lossy_eq_iff]

theorem get?_environ_of_text (h : ∀ p ∈ keep control vars, IsText p.1 ∧ IsText p.2)
    (pid : UInt32) (argv : List Bytes) (cwd : Bytes) (k v : String) :
    (ofPairs pid vars argv cwd control).environ.get? k = some v ↔
      ((keep control vars).filter fun p => p.1 = Bytes.ofString k).getLast? =
        some (Bytes.ofString k, Bytes.ofString v) := by
  rw [get?_environ, filter_lossy fun p hp => (h p hp).1, Option.map_eq_some_iff]
  constructor
  · rintro ⟨p, hp, hv⟩
    obtain ⟨hm, hname⟩ := List.mem_filter.mp (List.mem_of_getLast? hp)
    have hvalue : p.2 = Bytes.ofString v := (h p hm).2.lossy_eq_iff.mp hv
    rw [hp, ← hvalue, ← of_decide_eq_true hname]
  · intro hp
    exact ⟨_, hp, Utf8.lossy_ofString v⟩

theorem filter_keep (vars : List (Bytes × Bytes)) (control : String) (name : Bytes) :
    ((keep control vars).filter fun p => p.1 = name) =
      keep control (vars.filter fun p => p.1 = name) := List.filter_comm _ _ _

/-- Among names that are text, only the pairs with one name compete. -/
theorem environ_of_reordered (hperm : others.Perm vars)
    (horder : ∀ name, (others.filter fun p => p.1 = name) = vars.filter fun p => p.1 = name)
    (h : ∀ p ∈ keep control vars, IsText p.1) (pid : UInt32) (argv : List Bytes) (cwd : Bytes) :
    (ofPairs pid others argv cwd control).environ =
      (ofPairs pid vars argv cwd control).environ := by
  have hothers : ∀ p ∈ keep control others, IsText p.1 :=
    fun p hp => h p ((hperm.filter _).subset hp)
  refine SortedMap.ext_get? fun k => ?_
  rw [get?_environ, get?_environ, filter_lossy h, filter_lossy hothers, filter_keep, filter_keep,
    horder]

/-! ### The whole -/

/-- Everything but the control variable's pairs is kept, and what cannot be kept as text is
reported, string by string. Without a report nothing has changed on the way, and nothing of what is
sent hangs on the order of pairs that have different names. -/
theorem ofPairs_keeps (pid : UInt32) (vars : List (Bytes × Bytes)) (argv : List Bytes)
    (cwd : Bytes) (control : String) :
    let kept := vars.filter fun p => p.1 ≠ Bytes.ofString control
    let i := ofPairs pid vars argv cwd control
    i.spawnEnv = kept ∧
      (∀ k v, i.environ.get? k = some v ↔
        ∃ p, (kept.filter fun q => lossy q.1 = k).getLast? = some p ∧ lossy p.2 = v) ∧
      i.argv = argv.map lossy ∧
      ((lossEvents vars argv control).map fun e => (e.name, e.fields)) =
        lossLines (labelled kept argv) ∧
      (lossEvents vars argv control = [] →
        (∀ k v, i.environ.get? k = some v ↔
          (kept.filter fun q => q.1 = Bytes.ofString k).getLast? =
            some (Bytes.ofString k, Bytes.ofString v)) ∧
        i.argv.map Bytes.ofString = argv ∧
        ∀ others, others.Perm vars →
          (∀ name, (others.filter fun p => p.1 = name) = vars.filter fun p => p.1 = name) →
          (ofPairs pid others argv cwd control).environ = i.environ ∧
            ∀ semid, ((ofPairs pid others argv cwd control).payload semid).bytes =
              (i.payload semid).bytes) := by
  intro kept i
  refine ⟨rfl, fun k v => ?_, rfl, lines_lossEvents vars argv control, fun hnone => ?_⟩
  · have hget := get?_environ pid vars argv cwd control k
    rw [hget, Option.map_eq_some_iff]
    rfl
  · obtain ⟨hpairs, hargv⟩ := lossEvents_eq_nil_iff.mp hnone
    refine ⟨fun k v => get?_environ_of_text hpairs pid argv cwd k v, ?_, fun others hp ho => ?_⟩
    · have hsame : argv.map (fun a => Bytes.ofString (lossy a)) = argv.map id :=
        List.map_congr_left fun a ha => (hargv a ha).ofString_lossy
      rw [List.map_id] at hsame
      exact (List.map_map ..).trans hsame
    · have henv := environ_of_reordered hp ho (fun p hm => (hpairs p hm).1) pid argv cwd
      refine ⟨henv, fun semid => ?_⟩
      have hpayload : (ofPairs pid others argv cwd control).payload semid = i.payload semid := by
        rw [payload, henv]
        rfl
      rw [hpayload]

/-- Two names, of which one comes twice, in another order. -/
theorem ofPairs_keeps_reordered :
    let text (s t : String) : Bytes × Bytes := (Bytes.ofString s, Bytes.ofString t)
    let vars := [text "B" "1", text "KART_USE_HELPER" "", text "A" "é", text "B" "2"]
    let others := [text "A" "é", text "B" "1", text "B" "2", text "KART_USE_HELPER" ""]
    let i := ofPairs 1 vars [Bytes.ofString "kart"] [] Protocol.controlVariable
    lossEvents vars [Bytes.ofString "kart"] Protocol.controlVariable = [] ∧
      others.Perm vars ∧
      (∀ name, (others.filter fun p => p.1 = name) = vars.filter fun p => p.1 = name) ∧
      i.environ.get? "B" = some "2" ∧ i.argv.map Bytes.ofString = [Bytes.ofString "kart"] ∧
      (ofPairs 1 others [Bytes.ofString "kart"] [] Protocol.controlVariable).environ =
        i.environ := by
  intro text vars others i
  have hnone : lossEvents vars [Bytes.ofString "kart"] Protocol.controlVariable = [] := by
    refine lossEvents_eq_nil_iff.mpr ⟨fun p hp => ?_, fun a ha => ?_⟩
    · have hm : p = text "B" "1" ∨ p = text "KART_USE_HELPER" "" ∨ p = text "A" "é" ∨
          p = text "B" "2" := by simpa [vars] using (mem_keep.mp hp).1
      obtain rfl | rfl | rfl | rfl := hm <;> exact ⟨⟨_, rfl⟩, ⟨_, rfl⟩⟩
    · exact ⟨"kart", (List.mem_singleton.mp ha).symm⟩
  have horder (name : Bytes) :
      (others.filter fun p => p.1 = name) = vars.filter fun p => p.1 = name := by
    by_cases hb : Bytes.ofString "B" = name
    · subst hb
      decide
    · -- Of any other name there is at most one pair.
      by_cases ha : Bytes.ofString "A" = name
      · subst ha
        decide
      · simp [vars, others, text, List.filter_cons, ha, hb]
  obtain ⟨-, -, -, -, hexact⟩ :=
    ofPairs_keeps 1 vars [Bytes.ofString "kart"] [] Protocol.controlVariable
  obtain ⟨hvalue, hargv, hsame⟩ := hexact hnone
  have hperm : others.Perm vars := by decide
  exact ⟨hnone, hperm, horder, (hvalue "B" "2").mpr (by decide), hargv,
    (hsame others hperm horder).1⟩

end HelperHandoff.Invocation
