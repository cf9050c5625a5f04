import HelperHandoff.PayloadProgram
import HelperHandoff.Proofs.Host.Regular

/-!
Where the payload program is found. Two paths come into question at most, the second only if the
executable lies among build products; the answer is the first of them that leads to a regular
file, and no other file has a say in it.
-/

set_option autoImplicit false

namespace HelperHandoff.PayloadProgram

open Host.View (Looks)

def products : Path.Component := .named (Bytes.ofString productsDirectory)

def IsProducts (dir : Bytes) : Prop := (Path.components dir).getLast? = some products

/-- The paths at which the program may be. -/
inductive Candidate (exe name : Bytes) : Bytes → Prop
  | beside {dir} (hdir : Path.parent? exe = some dir) : Candidate exe name (Path.join dir name)
  | above {dir upper} (hdir : Path.parent? exe = some dir) (hproducts : IsProducts dir)
      (hupper : Path.parent? dir = some upper) : Candidate exe name (Path.join upper name)

/-- The candidate that counts; the one above does so only if the one beside is no regular file. -/
inductive Sought (regular : Bytes → Prop) (exe name : Bytes) : Bytes → Prop
  | beside {dir} (hdir : Path.parent? exe = some dir) (hfile : regular (Path.join dir name)) :
      Sought regular exe name (Path.join dir name)
  | above {dir upper} (hdir : Path.parent? exe = some dir)
      (hbeside : ¬ regular (Path.join dir name)) (hproducts : IsProducts dir)
      (hupper : Path.parent? dir = some upper) (hfile : regular (Path.join upper name)) :
      Sought regular exe name (Path.join upper name)

variable {exe name p : Bytes} {regular : Bytes → Prop}

theorem isProducts_iff {dir : Bytes} :
    IsProducts dir ↔ Path.fileName? dir = some (Bytes.ofString productsDirectory) :=
  Path.fileName?_eq_some_iff.symm

theorem Sought.candidate (h : Sought regular exe name p) : Candidate exe name p := by
  cases h with
  | beside hdir => exact .beside hdir
  | above hdir _ hproducts hupper => exact .above hdir hproducts hupper

theorem Sought.file (h : Sought regular exe name p) : regular p := by
  cases h with
  | beside _ hfile => exact hfile
  | above _ _ _ _ hfile => exact hfile

theorem Candidate.exists_sought (h : Candidate exe name p) (hp : regular p) :
    ∃ q, Sought regular exe name q := by
  cases h with
  | beside hdir => exact ⟨_, .beside hdir hp⟩
  | @above dir upper hdir hproducts hupper =>
    by_cases hbeside : regular (Path.join dir name)
    · exact ⟨_, .beside hdir hbeside⟩
    · exact ⟨_, .above hdir hbeside hproducts hupper hp⟩

theorem Sought.of_agree {other : Bytes → Prop}
    (hagree : ∀ p, Candidate exe name p → (regular p ↔ other p))
    (h : Sought regular exe name p) : Sought other exe name p := by
  cases h with
  | beside hdir hfile => exact .beside hdir ((hagree _ (.beside hdir)).mp hfile)
  | above hdir hbeside hproducts hupper hfile =>
    have hbeside := mt (hagree _ (.beside hdir)).mpr hbeside
    have hfile := (hagree _ (.above hdir hproducts hupper)).mp hfile
    exact .above hdir hbeside hproducts hupper hfile

theorem sought_congr {other : Bytes → Prop}
    (hagree : ∀ p, Candidate exe name p → (regular p ↔ other p)) :
    Sought regular exe name p ↔ Sought other exe name p :=
  ⟨.of_agree hagree, .of_agree fun p hp => (hagree p hp).symm⟩

theorem siblingOf_eq_some_iff {isFile : Bytes → Bool} :
    siblingOf isFile exe name = some p ↔ Sought (isFile · = true) exe name p := by
  constructor
  · intro h
    unfold siblingOf at h
    split at h
    · exact nomatch h
    rename_i dir hdir
    dsimp only at h
    split at h
    · rename_i hfile
      cases h
      exact .beside hdir hfile
    rename_i hbeside
    split at h
    · rename_i hproducts
      split at h
      · exact nomatch h
      rename_i upper hupper
      split at h
      · rename_i hfile
        cases h
        exact .above hdir hbeside (isProducts_iff.mpr hproducts) hupper hfile
      · exact nomatch h
    · exact nomatch h
  · intro h
    cases h with
    | beside hdir hfile => simp [siblingOf, hdir, hfile]
    | above hdir hbeside hproducts hupper hfile =>
      simp [siblingOf, hdir, hbeside, isProducts_iff.mp hproducts, hupper, hfile]

theorem siblingOf_eq_none_iff {isFile : Bytes → Bool} :
    siblingOf isFile exe name = none ↔ ∀ p, Candidate exe name p → isFile p = false := by
  constructor
  · intro h p hp
    by_contra hfile
    have hfile : isFile p = true := by simpa using hfile
    obtain ⟨q, hq⟩ : ∃ q, Sought (isFile · = true) exe name q := hp.exists_sought hfile
    rw [← siblingOf_eq_some_iff, h] at hq
    exact nomatch hq
  · intro h
    rw [Option.eq_none_iff_forall_ne_some]
    intro p hp
    have hp := siblingOf_eq_some_iff.mp hp
    have hfile := hp.file
    rw [h p hp.candidate] at hfile
    exact nomatch hfile

theorem upper_of_isProducts {dir : Bytes} (h : IsProducts dir) :
    ∃ upper, Path.parent? dir = some upper ∧
      Path.components dir = Path.components upper ++ [products] :=
  Path.exists_parent? (isProducts_iff.mp h)

/-- The executable's path with a name in place of its last component, or of the last two if it
lies in a directory of build products. -/
def Near (exe name : Bytes) (q : List Path.Component) : Prop :=
  ∃ base c, c ≠ .root ∧ q = base ++ [.named name] ∧
    (Path.components exe = base ++ [c] ∨ Path.components exe = base ++ [products, c])

theorem Candidate.near (hname : Path.IsPlain name) (h : Candidate exe name p) :
    Near exe name (Path.components p) := by
  cases h with
  | @beside dir hdir =>
    obtain ⟨-, c, hc, hexe⟩ := Path.parent?_eq_some hdir
    exact ⟨Path.components dir, c, hc, Path.components_join hname dir, .inl hexe⟩
  | @above dir upper hdir hproducts hupper =>
    obtain ⟨-, c, hc, hexe⟩ := Path.parent?_eq_some hdir
    obtain ⟨upper', hupper', hlast⟩ := upper_of_isProducts hproducts
    obtain rfl : upper' = upper := Option.some.inj (hupper'.symm.trans hupper)
    refine ⟨Path.components upper', c, hc, Path.components_join hname upper', .inr ?_⟩
    rw [hexe, hlast, List.append_assoc]
    rfl

theorem Near.exists_candidate (hname : Path.IsPlain name) {q : List Path.Component}
    (h : Near exe name q) : ∃ p, Candidate exe name p ∧ Path.components p = q := by
  obtain ⟨base, c, hc, rfl, hexe | hexe⟩ := h
  · obtain ⟨dir, hdir, hbase⟩ := Path.exists_parent?_of_components hexe hc
    exact ⟨_, .beside hdir, by rw [Path.components_join hname, hbase]⟩
  · have hexe : Path.components exe = (base ++ [products]) ++ [c] := by
      rw [hexe, List.append_assoc]
      rfl
    obtain ⟨dir, hdir, hlast⟩ := Path.exists_parent?_of_components hexe hc
    have hproducts : IsProducts dir := by rw [IsProducts, hlast, List.getLast?_concat]
    obtain ⟨upper, hupper, hlast'⟩ := upper_of_isProducts hproducts
    have hbase : Path.components upper = base :=
      (List.append_inj' (hlast'.symm.trans hlast) rfl).1
    exact ⟨_, .above hdir hproducts hupper, by rw [Path.components_join hname, hbase]⟩

/-- What is known of the search for a program of some name, on a host. -/
structure Resolution (h : Host) (exe name : Bytes) : Prop where
  found : ∀ p, siblingOf h.isFile exe name = some p ↔ Sought h.Regular exe name p
  missed : siblingOf h.isFile exe name = none ↔ ∀ p, Candidate exe name p → h.Unfit p
  orphaned : Path.components exe = [] ∨ Path.components exe = [.root] →
    siblingOf h.isFile exe name = none
  lies : Path.IsPlain name → ∀ q,
    (∃ p, Candidate exe name p ∧ Path.components p = q) ↔ Near exe name q
  holds : Path.IsPlain name → ∀ dir, h.Regular (Path.join dir name) ↔
    Host.Spelled (Path.join dir name) ∧ h.HoldsFile dir name
  alone : ∀ g : Host, (∀ p, Candidate exe name p → (g.Regular p ↔ h.Regular p)) →
    siblingOf g.isFile exe name = siblingOf h.isFile exe name
  /-- Nothing counts that is off the ways to the candidates. -/
  apart : ∀ g : Host, g.cwd = h.cwd →
    (∀ p x, Candidate exe name p → Looks h.tree.view (h.spotOf p) x →
      g.tree.node? x = h.tree.node? x) →
    siblingOf g.isFile exe name = siblingOf h.isFile exe name

theorem siblingOf_eq_some_iff_regular {h : Host} :
    siblingOf h.isFile exe name = some p ↔ Sought h.Regular exe name p := by
  rw [siblingOf_eq_some_iff]
  exact sought_congr fun _ _ => Host.isFile_iff_regular

theorem siblingOf_congr {g h : Host}
    (hagree : ∀ p, Candidate exe name p → (g.Regular p ↔ h.Regular p)) :
    siblingOf g.isFile exe name = siblingOf h.isFile exe name := by
  refine Option.ext fun p => ?_
  rw [siblingOf_eq_some_iff_regular, siblingOf_eq_some_iff_regular]
  exact sought_congr hagree

theorem siblingOf_eq_none_iff_unfit {h : Host} :
    siblingOf h.isFile exe name = none ↔ ∀ p, Candidate exe name p → h.Unfit p := by
  rw [siblingOf_eq_none_iff]
  refine forall₂_congr fun p _ => ?_
  rw [← not_not (a := h.Unfit p), ← Host.regular_iff_not_unfit, ← Host.isFile_iff_regular,
    Bool.not_eq_true]

theorem siblingOf_resolves (h : Host) (exe name : Bytes) : Resolution h exe name where
  found _ := siblingOf_eq_some_iff_regular
  missed := siblingOf_eq_none_iff_unfit
  orphaned hexe := by
    rw [siblingOf, Path.parent?_eq_none_iff.mpr hexe]
  lies hname _ := ⟨fun ⟨_, hp, hq⟩ => hq ▸ hp.near hname, fun h => h.exists_candidate hname⟩
  holds hname dir := Host.regular_join_iff hname dir
  alone _ := siblingOf_congr
  apart _ hcwd hagree :=
    siblingOf_congr fun p hp => Host.regular_iff_of_agree hcwd fun x hx => hagree p x hp hx

example : siblingOf (· == Bytes.ofString "./kart-payload") (Bytes.ofString "./deps//kart/.")
    (Bytes.ofString "kart-payload") = some (Bytes.ofString "./kart-payload") := by decide

/-! ### The program that is started -/

def payload : Bytes := Bytes.ofString Protocol.payloadProgram

theorem isPlain_payload : Path.IsPlain payload := by decide

theorem resolve_cases (h : Host) (executable : Option Bytes) :
    (∃ exe, executable = some exe ∧ Sought h.Regular exe payload (resolve h.isFile executable)) ∨
    resolve h.isFile executable = payload ∧
      ∀ exe, executable = some exe → ∀ p, Candidate exe payload p → h.Unfit p := by
  cases executable with
  | none => exact .inr ⟨rfl, nofun⟩
  | some exe =>
    cases hfound : siblingOf h.isFile exe payload with
    | some p =>
      have hresolve : resolve h.isFile (some exe) = p := congrArg (·.getD payload) hfound
      rw [hresolve]
      exact .inl ⟨exe, rfl, siblingOf_eq_some_iff_regular.mp hfound⟩
    | none =>
      refine .inr ⟨congrArg (·.getD payload) hfound, fun exe' hexe => ?_⟩
      cases hexe
      exact siblingOf_eq_none_iff_unfit.mp hfound

/-- Wherever it is found, what is started goes by the name of the payload. -/
theorem getLast?_components_resolve (h : Host) (executable : Option Bytes) :
    (Path.components (resolve h.isFile executable)).getLast? = some (.named payload) := by
  rcases resolve_cases h executable with ⟨exe, -, hsought⟩ | ⟨hbare, -⟩
  · obtain ⟨base, c, -, hq, -⟩ := hsought.candidate.near isPlain_payload
    rw [hq, List.getLast?_concat]
  · rw [hbare]
    decide

end HelperHandoff.PayloadProgram
