import HelperHandoff.Host.Basic
import HelperHandoff.Proofs.Host.Walk
import HelperHandoff.Proofs.Path

set_option autoImplicit false

namespace HelperHandoff.Host

open Bytes (slash)
open View (Comes IsEntry Looks Spot Step Stuck longestPath mostLinks origin walk_cases)

def Spelled (p : Bytes) : Prop := p.hasNul = false ∧ p ≠ [] ∧ p.length ≤ longestPath

abbrev spotOf (h : Host) (p : Bytes) : Spot := View.spotOf h.cwd p

/-- A path that leads to a regular file, over no more links than are followed. -/
structure Regular (h : Host) (p : Bytes) : Prop where
  spelled : Spelled p
  leads : ∃ n l node, n ≤ mostLinks ∧ Comes h.tree.view (h.spotOf p) n ⟨l, []⟩ ∧
    h.tree.node? l = some node ∧ node.isFile = true

/-- What can be wrong with a path that should lead to a regular file. -/
inductive Unfit (h : Host) (p : Bytes) : Prop
  | misspelled (hp : ¬ Spelled p)
  /-- A name is missing, as after a link that dangles, or what has to be gone through is no
  directory. -/
  | astray {n t} (hcomes : Comes h.tree.view (h.spotOf p) n t) (hstuck : Stuck h.tree.view t)
  | loops {n m l names more} (hcomes : Comes h.tree.view (h.spotOf p) n ⟨l, names⟩)
      (hloop : Comes h.tree.view ⟨l, names⟩ (m + 1) ⟨l, names ++ more⟩)
  | winds {n t} (hn : mostLinks < n) (hcomes : Comes h.tree.view (h.spotOf p) n t)
  | other {n l} (hcomes : Comes h.tree.view (h.spotOf p) n ⟨l, []⟩)
      (hnode : ∀ node, h.tree.node? l = some node → node.isFile = false)

variable {h g : Host} {p : Bytes}

theorem isFile_iff_regular : h.isFile p = true ↔ h.Regular p := by
  have hnode : h.isFile p = true ↔ p.hasNul = false ∧
      ∃ node, h.tree.view.resolveNode h.cwd p = .ok node ∧ node.isFile = true := by
    rw [isFile]
    cases h.tree.view.resolveNode h.cwd p <;> simp
  rw [hnode]
  constructor
  · rintro ⟨hnul, node, hres, hfile⟩
    obtain ⟨l, hres, hl⟩ := View.resolveNode_eq_ok_iff.mp hres
    obtain ⟨hne, hlength, n, hn, hcomes⟩ := View.resolve_eq_ok_iff.mp hres
    exact ⟨⟨hnul, hne, hlength⟩, n, l, node, hn, hcomes, hl, hfile⟩
  · rintro ⟨⟨hnul, hne, hlength⟩, n, l, node, hn, hcomes, hl, hfile⟩
    have hres := View.resolve_eq_ok_iff.mpr ⟨hne, hlength, n, hn, hcomes⟩
    exact ⟨hnul, node, View.resolveNode_eq_ok_iff.mpr ⟨l, hres, hl⟩, hfile⟩

theorem regular_iff_not_unfit : h.Regular p ↔ ¬ h.Unfit p := by
  constructor
  · rintro ⟨hp, n, l, node, hn, hcomes, hnode, hfile⟩ hunfit
    have hend : ∀ k t, ¬ Step h.tree.view ⟨l, []⟩ k t := fun _ _ => View.not_step_arrived
    cases hunfit with
    | misspelled hp' => exact hp' hp
    | astray hcomes' hstuck =>
      have hrest := (hcomes.comes_end hend hcomes').2
      have ht := (hrest.eq_of_no_step fun _ _ => hstuck.no_step).1
      exact hstuck.left_ne_nil (congrArg Spot.left ht)
    | loops hcomes' hloop =>
      obtain ⟨c, rest, hc, hround⟩ := hloop.endless (n + 1)
      have := (hcomes.comes_end hend (hcomes'.trans hround)).1
      omega
    | winds hn' hcomes' =>
      have := (hcomes.comes_end hend hcomes').1
      omega
    | other hcomes' hnode' =>
      have hrest := (hcomes.comes_end hend hcomes').2
      have hl := (hrest.eq_of_no_step fun _ _ => View.not_step_arrived).1
      cases hl
      simp [hnode' node hnode] at hfile
  · intro hfit
    refine ⟨not_not.mp fun hp => hfit (.misspelled hp), ?_⟩
    rcases walk_cases h.tree.view mostLinks (h.spotOf p) with
      ⟨n, l, hn, hcomes⟩ | ⟨-, ⟨n, t, -, hcomes, hstuck⟩ | ⟨n, t, hn, hcomes⟩⟩
    · by_contra hnone
      refine hfit (.other hcomes fun node hnode => ?_)
      by_contra hfile
      exact hnone ⟨n, l, node, hn, hcomes, hnode, by simpa using hfile⟩
    · exact absurd (.astray hcomes hstuck) hfit
    · exact absurd (.winds hn hcomes) hfit

/-- A host with the same files wherever the path is followed leads it to the same end. -/
theorem regular_iff_of_agree (hcwd : g.cwd = h.cwd)
    (hagree : ∀ x, Looks h.tree.view (h.spotOf p) x → g.tree.node? x = h.tree.node? x) :
    g.Regular p ↔ h.Regular p := by
  have hspot : g.spotOf p = h.spotOf p := by rw [spotOf, spotOf, hcwd]
  have hcomes : ∀ n t, Comes g.tree.view (h.spotOf p) n t ↔ Comes h.tree.view (h.spotOf p) n t :=
    fun n t => View.comes_iff_of_agree hagree
  constructor
  · rintro ⟨hp, n, l, node, hn, hway, hl, hfile⟩
    rw [hspot, hcomes] at hway
    rw [hagree l ⟨n, _, hway, .inl rfl⟩] at hl
    exact ⟨hp, n, l, node, hn, hway, hl, hfile⟩
  · rintro ⟨hp, n, l, node, hn, hway, hl, hfile⟩
    refine ⟨hp, n, l, node, hn, ?_, ?_, hfile⟩
    · rwa [hspot, hcomes]
    · rwa [hagree l ⟨n, _, hway, .inl rfl⟩]

/-! ### A name in a directory -/

/-- A way to a name in a directory leads to the directory first. -/
theorem comes_join_iff {name : Bytes} (hname : Path.IsPlain name) {dir : Bytes} {n : Nat}
    {l : Location} : Comes h.tree.view (h.spotOf (Path.join dir name)) n ⟨l, []⟩ ↔
      ∃ d i j, n = i + j ∧ Comes h.tree.view (h.spotOf dir) i ⟨d, []⟩ ∧
        Comes h.tree.view ⟨d, [name]⟩ j ⟨l, []⟩ := by
  have horigin : origin h.cwd (Path.join dir name) = origin h.cwd dir := by
    rw [origin, origin, Path.isAbsolute_join hname]
  obtain ⟨fs, hfields, hdir⟩ := Path.fields_join hname dir
  have hspot : h.spotOf (Path.join dir name) = ⟨origin h.cwd dir, fs ++ [name]⟩ := by
    rw [spotOf, View.spotOf, horigin, hfields]
  have hreached : ∀ {d i j}, Comes h.tree.view ⟨d, [name]⟩ j ⟨l, []⟩ →
      (Comes h.tree.view (h.spotOf dir) i ⟨d, []⟩ ↔
        Comes h.tree.view ⟨origin h.cwd dir, fs⟩ i ⟨d, []⟩) := by
    intro d i j hlast
    rw [spotOf, View.spotOf]
    rcases hdir with hdir | hdir
    · rw [hdir]
    · rw [hdir]
      cases hlast with
      | head first _ => exact Comes.slashed_iff first.place
  rw [hspot]
  constructor
  · intro hway
    obtain ⟨d, i, j, hn, hfirst, hlast⟩ := hway.split
    exact ⟨d, i, j, hn, (hreached hlast).mpr hfirst, hlast⟩
  · rintro ⟨d, i, j, rfl, hfirst, hlast⟩
    exact (((hreached hlast).mp hfirst).append [name]).trans hlast

def HoldsFile (h : Host) (dir name : Bytes) : Prop :=
  ∃ d i j l node, i + j ≤ mostLinks ∧ Comes h.tree.view (h.spotOf dir) i ⟨d, []⟩ ∧
    Comes h.tree.view ⟨d, [name]⟩ j ⟨l, []⟩ ∧ h.tree.node? l = some node ∧ node.isFile = true

theorem regular_join_iff {name : Bytes} (hname : Path.IsPlain name) (dir : Bytes) :
    h.Regular (Path.join dir name) ↔ Spelled (Path.join dir name) ∧ h.HoldsFile dir name := by
  constructor
  · rintro ⟨hp, n, l, node, hn, hway, hl, hfile⟩
    obtain ⟨d, i, j, rfl, hfirst, hlast⟩ := (comes_join_iff hname).mp hway
    exact ⟨hp, d, i, j, l, node, hn, hfirst, hlast, hl, hfile⟩
  · rintro ⟨hp, d, i, j, l, node, hn, hfirst, hlast, hl, hfile⟩
    have hway := (comes_join_iff hname).mpr ⟨d, i, j, rfl, hfirst, hlast⟩
    exact ⟨hp, i + j, l, node, hn, hway, hl, hfile⟩

end HelperHandoff.Host
