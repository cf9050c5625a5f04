import HelperHandoff.Path
import Mathlib.Data.List.DropRight

set_option autoImplicit false

namespace HelperHandoff

namespace Bytes

theorem cut_append (sep x : UInt8) {fs : List Bytes} (gs : List Bytes) (h : fs ≠ []) :
    cut sep x (fs ++ gs) = cut sep x fs ++ gs := by
  obtain ⟨f, fs, rfl⟩ := List.exists_cons_of_ne_nil h
  by_cases hx : x = sep <;> simp [cut, hx]

theorem fields_append_sep (sep : UInt8) (a b : Bytes) :
    fields sep (a ++ sep :: b) = fields sep a ++ fields sep b := by
  induction a with
  | nil =>
    obtain ⟨f, fs, hf⟩ := List.exists_cons_of_ne_nil (fields_ne_nil sep b)
    simp [hf, cut]
  | cons x a ih => rw [List.cons_append, fields_cons, ih, cut_append _ _ _ (fields_ne_nil sep a),
      fields_cons]

theorem fields_eq_singleton {sep : UInt8} {b : Bytes} (h : sep ∉ b) : fields sep b = [b] := by
  induction b with
  | nil => rfl
  | cons x b ih =>
    rw [List.mem_cons, not_or] at h
    rw [fields_cons, ih h.2, cut, if_neg (Ne.symm h.1)]

theorem unfields_cons (sep : UInt8) (f : Bytes) {fs : List Bytes} (h : fs ≠ []) :
    unfields sep (f :: fs) = f ++ sep :: unfields sep fs := by
  obtain ⟨g, gs, rfl⟩ := List.exists_cons_of_ne_nil h
  rfl

theorem fields_unfields {sep : UInt8} {fs : List Bytes} (hne : fs ≠ [])
    (h : ∀ f ∈ fs, sep ∉ f) : fields sep (unfields sep fs) = fs := by
  induction fs with
  | nil => exact absurd rfl hne
  | cons f fs ih =>
    have hf : fields sep f = [f] := fields_eq_singleton (h f (by simp))
    by_cases hfs : fs = []
    · rw [hfs, unfields, hf]
    · rw [unfields_cons sep f hfs, fields_append_sep, hf, ih hfs fun g hg => h g (by simp [hg])]
      rfl

theorem sep_not_mem_field {sep : UInt8} {b f : Bytes} (h : f ∈ fields sep b) : sep ∉ f := by
  induction b generalizing f with
  | nil => simp_all
  | cons x b ih =>
    obtain ⟨g, gs, hg⟩ := List.exists_cons_of_ne_nil (fields_ne_nil sep b)
    rw [fields_cons, hg, cut] at h
    rw [hg] at ih
    by_cases hx : x = sep
    · rw [if_pos hx, List.mem_cons] at h
      rcases h with rfl | h
      · simp
      · exact ih h
    · rw [if_neg hx, List.mem_cons] at h
      rcases h with rfl | h
      · rw [List.mem_cons, not_or]
        exact ⟨Ne.symm hx, ih (by simp)⟩
      · exact ih (by simp [h])

theorem head?_fields_eq_nil_iff {sep : UInt8} {b : Bytes} :
    (fields sep b).head? = some [] ↔ b = [] ∨ b.head? = some sep := by
  cases b with
  | nil => simp
  | cons x b =>
    obtain ⟨f, fs, hf⟩ := List.exists_cons_of_ne_nil (fields_ne_nil sep b)
    by_cases hx : x = sep <;> simp [hf, cut, hx]

theorem unfields_isPrefix (sep : UInt8) {gs fs : List Bytes} (h : gs <+: fs) :
    unfields sep gs <+: unfields sep fs := by
  induction gs generalizing fs with
  | nil => exact List.nil_prefix
  | cons g gs ih =>
    obtain ⟨rest, rfl⟩ := h
    by_cases hgs : gs = []
    · subst hgs
      cases rest with
      | nil => exact List.prefix_refl _
      | cons r rest => exact List.prefix_append g _
    · rw [List.cons_append, unfields_cons sep g hgs, unfields_cons sep g (by simp [hgs]),
        List.prefix_append_right_inj, List.cons_prefix_cons]
      exact ⟨rfl, ih (List.prefix_append gs rest)⟩

end Bytes

namespace Path

open Bytes (slash dot)

inductive Component where
  | root
  | here
  | up
  | named (name : Bytes)
  deriving DecidableEq, Repr

/-- The component that a field stands for; an empty field and a single dot stand for none. -/
def component? (f : Bytes) : Option Component :=
  if f = [] ∨ f = [dot] then none
  else if f = [dot, dot] then some .up
  else some (.named f)

def lead (p : Bytes) : List Component :=
  if isAbsolute p then [.root]
  else if (Bytes.fields slash p).head? = some [dot] then [.here]
  else []

def components (p : Bytes) : List Component :=
  lead p ++ (Bytes.fields slash p).filterMap component?

def IsPlain (name : Bytes) : Prop :=
  name ≠ [] ∧ name ≠ [dot] ∧ name ≠ [dot, dot] ∧ slash ∉ name

instance (name : Bytes) : Decidable (IsPlain name) := by unfold IsPlain; infer_instance

theorem component?_eq_none_iff {f : Bytes} : component? f = none ↔ isEmptyField f = true := by
  by_cases h : f = [] ∨ f = [dot]
  · simp [component?, isEmptyField, h]
  · by_cases hu : f = [dot, dot] <;> simp_all [component?, isEmptyField]

theorem component?_eq_named_iff {f name : Bytes} (hf : slash ∉ f) :
    component? f = some (.named name) ↔ f = name ∧ IsPlain name := by
  constructor
  · intro h
    unfold component? at h
    split at h
    · exact nomatch h
    · split at h
      · exact nomatch h
      · cases h
        exact ⟨rfl, by simp_all [IsPlain]⟩
  · rintro ⟨rfl, h⟩
    simp [component?, h.1, h.2.1, h.2.2.1]

theorem component?_ne_root {f : Bytes} {c : Component} (h : component? f = some c) :
    c ≠ .root := by
  unfold component? at h
  split at h
  · exact nomatch h
  · split at h <;> cases h <;> exact nofun

/-! ### Anchors -/

def Anchor.components : Anchor → List Component
  | .root => [.root]
  | .here => [.here]
  | .none => []

/-- The fields that can follow an anchor in the spelling of a path. -/
def Follows : Anchor → List Bytes → Prop
  | .root, _ => True
  | .here, fs => fs = [] ∨ fs.head? = some []
  | .none, fs => fs = [] ∨ fs = [[]] ∨ ∃ f, fs.head? = some f ∧ isEmptyField f = false

theorem Follows.of_isPrefix {a : Anchor} {gs fs : List Bytes} (h : Follows a fs)
    (hp : gs <+: fs) : Follows a gs := by
  obtain ⟨rest, rfl⟩ := hp
  cases gs with
  | nil => cases a <;> simp [Follows]
  | cons g gs =>
    cases a with
    | root => trivial
    | here => simpa [Follows] using h
    | none =>
      rcases h with h | h | h
      · simp at h
      · exact .inr (.inl (by simp_all))
      · exact .inr (.inr h)

theorem anchored_spec (p : Bytes) :
    Follows (anchored p).1 (anchored p).2 ∧ (∀ f ∈ (anchored p).2, slash ∉ f) ∧
      p = (anchored p).1.bytes ++ Bytes.unfields slash (anchored p).2 := by
  cases p with
  | nil => exact ⟨.inl rfl, by simp [anchored], rfl⟩
  | cons b rest =>
    by_cases hs : b = slash
    · have ha : anchored (b :: rest) = (.root, Bytes.fields slash rest) := by simp [anchored, hs]
      rw [ha, Bytes.unfields_fields, hs]
      exact ⟨trivial, fun _ => Bytes.sep_not_mem_field, rfl⟩
    by_cases hd : b = dot ∧ rest.isEmpty
    · have ha : anchored (b :: rest) = (.here, []) := by
        rw [anchored, if_neg hs, if_pos hd]
      rw [ha, hd.1, List.isEmpty_iff.mp hd.2]
      exact ⟨.inl rfl, by simp, rfl⟩
    by_cases hh : b = dot ∧ rest.head? = some slash
    · have ha : anchored (b :: rest) = (.here, Bytes.fields slash rest) := by
        rw [anchored, if_neg hs, if_neg hd, if_pos hh]
      rw [ha, Bytes.unfields_fields, hh.1]
      exact ⟨.inr (Bytes.head?_fields_eq_nil_iff.mpr (.inr hh.2)),
        fun _ => Bytes.sep_not_mem_field, rfl⟩
    · have ha : anchored (b :: rest) = (.none, Bytes.fields slash (b :: rest)) := by
        rw [anchored, if_neg hs, if_neg hd, if_neg hh]
      obtain ⟨f, fs, hf⟩ := List.exists_cons_of_ne_nil (Bytes.fields_ne_nil slash rest)
      have hfirst : (Bytes.fields slash (b :: rest)).head? = some (b :: f) := by
        simp [hf, Bytes.cut, hs]
      have hname : isEmptyField (b :: f) = false := by
        -- A lone dot would have been taken for an anchor.
        by_contra he
        have he : b = dot ∧ f = [] := by simpa [isEmptyField] using he
        have hrest := Bytes.head?_fields_eq_nil_iff.mp (by rw [hf, he.2]; rfl)
        rcases hrest with hrest | hrest
        · exact hd ⟨he.1, List.isEmpty_iff.mpr hrest⟩
        · exact hh ⟨he.1, hrest⟩
      rw [ha, Bytes.unfields_fields]
      exact ⟨.inr (.inr ⟨_, hfirst, hname⟩), fun _ => Bytes.sep_not_mem_field, rfl⟩

theorem filterMap_fields_unfields {fs : List Bytes} (hfs : ∀ f ∈ fs, slash ∉ f) :
    (Bytes.fields slash (Bytes.unfields slash fs)).filterMap component? =
      fs.filterMap component? := by
  by_cases hne : fs = []
  · subst hne
    rfl
  · rw [Bytes.fields_unfields hne hfs]

theorem components_slash (q : Bytes) :
    components (slash :: q) = .root :: (Bytes.fields slash q).filterMap component? := by
  have hcut : Bytes.fields slash (slash :: q) = [] :: Bytes.fields slash q :=
    Bytes.fields_append_sep slash [] q
  rw [components, hcut, List.filterMap_cons_none rfl]
  rfl

theorem components_dot {q : Bytes} {fs : List Bytes} (h : Bytes.fields slash q = [] :: fs) :
    components (dot :: q) = .here :: fs.filterMap component? := by
  have hcut : Bytes.fields slash (dot :: q) = [dot] :: fs := by
    rw [Bytes.fields_cons, h]
    rfl
  rw [components, lead, hcut, List.filterMap_cons_none rfl]
  rfl

theorem components_bare {p f : Bytes} (h : (Bytes.fields slash p).head? = some f)
    (hname : isEmptyField f = false) :
    components p = (Bytes.fields slash p).filterMap component? := by
  have hf : f ≠ [] ∧ f ≠ [dot] := by simpa [isEmptyField] using hname
  have habsolute : isAbsolute p = false := by
    by_contra hs
    have hs : p.head? = some slash := by simpa [isAbsolute] using hs
    have hempty := Bytes.head?_fields_eq_nil_iff.mpr (.inr hs)
    rw [h] at hempty
    exact hf.1 (Option.some.inj hempty)
  simp [components, lead, habsolute, h, hf.2]

/-- What an anchor and the fields after it spell has the components of both. -/
theorem components_spelled {a : Anchor} {fs : List Bytes} (h : Follows a fs)
    (hfs : ∀ f ∈ fs, slash ∉ f) :
    components (a.bytes ++ Bytes.unfields slash fs) =
      a.components ++ fs.filterMap component? := by
  cases a with
  | root =>
    rw [Anchor.bytes, List.singleton_append, components_slash, filterMap_fields_unfields hfs]
    rfl
  | here =>
    rcases h with rfl | h
    · rfl
    · obtain ⟨gs, rfl⟩ := List.head?_eq_some_iff.mp h
      have hcut := Bytes.fields_unfields (List.cons_ne_nil [] gs) hfs
      rw [Anchor.bytes, List.singleton_append, components_dot hcut]
      rfl
  | none =>
    rcases h with rfl | rfl | ⟨f, h, hname⟩
    · rfl
    · rfl
    · have hne : fs ≠ [] := by
        rintro rfl
        exact nomatch h
      have hcut := Bytes.fields_unfields hne hfs
      rw [Anchor.bytes, List.nil_append, components_bare (by rwa [hcut]) hname, hcut]
      rfl

theorem components_eq (p : Bytes) :
    components p = (anchored p).1.components ++ (anchored p).2.filterMap component? := by
  obtain ⟨hfollows, hfields, hp⟩ := anchored_spec p
  have := components_spelled hfollows hfields
  rwa [← hp] at this

/-! ### The way up -/

theorem dropEmptyEnd_eq_rdropWhile (fs : List Bytes) :
    dropEmptyEnd fs = fs.rdropWhile isEmptyField := rfl

theorem dropEmptyEnd_cases (fs : List Bytes) :
    dropEmptyEnd fs = [] ∧ fs.filterMap component? = [] ∨
    ∃ gs f c, dropEmptyEnd fs = gs ++ [f] ∧ component? f = some c ∧
      fs.filterMap component? = gs.filterMap component? ++ [c] := by
  induction fs using List.reverseRecOn with
  | nil => exact .inl ⟨rfl, rfl⟩
  | append_singleton fs f ih =>
    rw [dropEmptyEnd_eq_rdropWhile] at ih ⊢
    cases hf : component? f with
    | none =>
      rw [List.rdropWhile_concat_pos _ _ _ (component?_eq_none_iff.mp hf), List.filterMap_append,
        List.filterMap_cons_none hf, List.filterMap_nil, List.append_nil]
      exact ih
    | some c =>
      have hname : ¬ isEmptyField f = true := by
        rw [← component?_eq_none_iff, hf]
        nofun
      rw [List.rdropWhile_concat_neg _ _ _ hname]
      exact .inr ⟨fs, f, c, rfl, hf, by simp [hf]⟩

theorem filterMap_dropEmptyEnd (fs : List Bytes) :
    (dropEmptyEnd fs).filterMap component? = fs.filterMap component? := by
  rcases dropEmptyEnd_cases fs with ⟨hnil, hfs⟩ | ⟨gs, f, c, hkept, hc, hfs⟩
  · rw [hnil, hfs]
    rfl
  · rw [hkept, hfs]
    simp [hc]

theorem dropEmptyEnd_isPrefix (fs : List Bytes) : dropEmptyEnd fs <+: fs :=
  List.rdropWhile_prefix _ _

theorem parent?_cases (p : Bytes) :
    parent? p = none ∧ (components p = [] ∨ components p = [.root]) ∨
    ∃ dir c, parent? p = some dir ∧ dir <+: p ∧ c ≠ .root ∧
      components p = components dir ++ [c] := by
  obtain ⟨hfollows, hfields, hp⟩ := anchored_spec p
  have hcomponents := components_eq p
  generalize hanchored : anchored p = anchored at hfollows hfields hp hcomponents
  obtain ⟨a, fs⟩ := anchored
  rcases dropEmptyEnd_cases fs with ⟨hkept, hnone⟩ | ⟨gs, f, c, hkept, hc, hsome⟩
  · rw [hnone, List.append_nil] at hcomponents
    cases a with
    | root => exact .inl ⟨by simp [parent?, hanchored, hkept], .inr hcomponents⟩
    | none => exact .inl ⟨by simp [parent?, hanchored, hkept], .inl hcomponents⟩
    | here =>
      exact .inr ⟨[], .here, by simp [parent?, hanchored, hkept], List.nil_prefix, nofun,
        hcomponents⟩
  · have hparent : parent? p = some (a.bytes ++ Bytes.unfields slash (dropEmptyEnd gs)) := by
      cases hcut : gs ++ [f] with
      | nil => simp at hcut
      | cons g rest =>
        have hinit : gs = (g :: rest).dropLast := by rw [← hcut, List.dropLast_concat]
        simp [parent?, hanchored, hkept, hinit]
    have hstart : dropEmptyEnd gs <+: fs :=
      (dropEmptyEnd_isPrefix gs).trans
        ((List.prefix_append gs [f]).trans (hkept ▸ dropEmptyEnd_isPrefix fs))
    have hdir := components_spelled (hfollows.of_isPrefix hstart)
      fun g hg => hfields g (hstart.subset hg)
    refine .inr ⟨_, c, hparent, ?_, component?_ne_root hc, ?_⟩
    · rw [hp, List.prefix_append_right_inj]
      exact Bytes.unfields_isPrefix slash hstart
    · rw [hcomponents, hsome, hdir, filterMap_dropEmptyEnd, List.append_assoc]

theorem parent?_eq_none_iff {p : Bytes} :
    parent? p = none ↔ components p = [] ∨ components p = [.root] := by
  rcases parent?_cases p with ⟨hnone, hp⟩ | ⟨dir, c, hsome, -, hc, hp⟩
  · exact ⟨fun _ => hp, fun _ => hnone⟩
  · rw [hsome, hp]
    refine ⟨nofun, fun h => ?_⟩
    rcases h with h | h
    · simp at h
    · have hlast := congrArg List.getLast? h
      rw [List.getLast?_concat] at hlast
      exact absurd (Option.some.inj hlast) hc

theorem parent?_eq_some {p dir : Bytes} (h : parent? p = some dir) :
    dir <+: p ∧ ∃ c, c ≠ .root ∧ components p = components dir ++ [c] := by
  rcases parent?_cases p with ⟨hnone, -⟩ | ⟨_, c, hsome, hstart, hc, hp⟩
  · rw [hnone] at h
    exact nomatch h
  · rw [hsome] at h
    cases h
    exact ⟨hstart, c, hc, hp⟩

theorem exists_parent?_of_components {p : Bytes} {init : List Component} {c : Component}
    (h : components p = init ++ [c]) (hc : c ≠ .root) :
    ∃ dir, parent? p = some dir ∧ components dir = init := by
  have hsome : parent? p ≠ none := by
    rw [Ne, parent?_eq_none_iff, h]
    rintro (hnil | hroot)
    · simp at hnil
    · have hlast := congrArg List.getLast? hroot
      rw [List.getLast?_concat] at hlast
      exact hc (Option.some.inj hlast)
  obtain ⟨dir, hdir⟩ := Option.ne_none_iff_exists'.mp hsome
  obtain ⟨-, c', -, hp⟩ := parent?_eq_some hdir
  exact ⟨dir, hdir, (List.append_inj' (hp.symm.trans h) rfl).1⟩

theorem fileName?_eq_some_iff {p name : Bytes} :
    fileName? p = some name ↔ (components p).getLast? = some (.named name) := by
  obtain ⟨-, hfields, -⟩ := anchored_spec p
  rw [components_eq, fileName?]
  generalize anchored p = anchored at hfields
  obtain ⟨a, fs⟩ := anchored
  rcases dropEmptyEnd_cases fs with ⟨hkept, hnone⟩ | ⟨gs, f, c, hkept, hc, hsome⟩
  · rw [hkept, hnone]
    cases a <;> simp [Anchor.components]
  · have hf : f ∈ fs := (dropEmptyEnd_isPrefix fs).subset (by simp [hkept])
    by_cases hup : f = [dot, dot]
    · have : c = .up := by simpa [component?, hup] using hc.symm
      simp [hkept, hsome, hup, this]
    · have hname : ¬ (f = [] ∨ f = [dot]) := by
        intro he
        simp [component?, he] at hc
      have : c = .named f := by simpa [component?, hup, hname] using hc.symm
      simp [hkept, hsome, hup, this]

theorem exists_parent? {p name : Bytes} (h : fileName? p = some name) :
    ∃ dir, parent? p = some dir ∧ components p = components dir ++ [.named name] := by
  obtain ⟨init, hp⟩ := List.getLast?_eq_some_iff.mp (fileName?_eq_some_iff.mp h)
  obtain ⟨dir, hdir, hinit⟩ := exists_parent?_of_components hp nofun
  exact ⟨dir, hdir, by rw [hp, hinit]⟩

/-! ### Putting a name at the end -/

theorem lead_append_slash (dir q : Bytes) :
    lead (dir ++ slash :: q) = if dir = [] then [.root] else lead dir := by
  cases dir with
  | nil => rfl
  | cons b dir =>
    obtain ⟨f, fs, hf⟩ := List.exists_cons_of_ne_nil (Bytes.fields_ne_nil slash (b :: dir))
    rw [lead, lead, Bytes.fields_append_sep, hf]
    rfl

theorem components_append_slash (dir q : Bytes) :
    components (dir ++ slash :: q) =
      (if dir = [] then [.root] else components dir) ++
        (Bytes.fields slash q).filterMap component? := by
  rw [components, lead_append_slash, Bytes.fields_append_sep, List.filterMap_append]
  cases dir with
  | nil => rfl
  | cons b dir => simp [components]

/-- The two are parted by one slash; a directory that ends in a slash brings it, and one without
a byte needs none. -/
theorem join_cases {name : Bytes} (h : IsPlain name) (dir : Bytes) :
    dir = [] ∧ join dir name = name ∨
    ∃ d, (dir = d ++ [slash] ∨ dir = d ∧ d ≠ []) ∧ join dir name = d ++ slash :: name := by
  have habsolute : isAbsolute name = false := by
    by_contra hs
    have hs : name.head? = some slash := by simpa [isAbsolute] using hs
    exact h.2.2.2 (List.mem_of_mem_head? hs)
  by_cases hdir : dir = []
  · exact .inl ⟨hdir, by simp [join, habsolute, hdir]⟩
  by_cases hlast : dir.getLast? = some slash
  · obtain ⟨d, rfl⟩ := List.getLast?_eq_some_iff.mp hlast
    exact .inr ⟨d, .inl rfl, by simp [join, habsolute]⟩
  · exact .inr ⟨dir, .inr ⟨rfl, hdir⟩, by simp [join, habsolute, hdir, hlast]⟩

theorem isAbsolute_join {name : Bytes} (h : IsPlain name) (dir : Bytes) :
    isAbsolute (join dir name) = isAbsolute dir := by
  rcases join_cases h dir with ⟨rfl, hjoin⟩ | ⟨d, hdir, hjoin⟩
  · have : name.head? ≠ some slash := fun hs => h.2.2.2 (List.mem_of_mem_head? hs)
    simpa [hjoin, isAbsolute] using this
  · rw [hjoin]
    rcases hdir with rfl | ⟨rfl, hne⟩
    · cases d <;> rfl
    · obtain ⟨b, d, rfl⟩ := List.exists_cons_of_ne_nil hne
      rfl

theorem fields_join {name : Bytes} (h : IsPlain name) (dir : Bytes) :
    ∃ fs, Bytes.fields slash (join dir name) = fs ++ [name] ∧
      (Bytes.fields slash dir = fs ∨ Bytes.fields slash dir = fs ++ [[]]) := by
  have hname : Bytes.fields slash name = [name] := Bytes.fields_eq_singleton h.2.2.2
  rcases join_cases h dir with ⟨rfl, hjoin⟩ | ⟨d, hdir, hjoin⟩
  · exact ⟨[], by rw [hjoin, hname]; rfl, .inr rfl⟩
  · refine ⟨Bytes.fields slash d, by rw [hjoin, Bytes.fields_append_sep, hname], ?_⟩
    rcases hdir with rfl | ⟨rfl, -⟩
    · exact .inr (Bytes.fields_append_sep slash d [])
    · exact .inl rfl

theorem components_join {name : Bytes} (h : IsPlain name) (dir : Bytes) :
    components (join dir name) = components dir ++ [.named name] := by
  have hnamed : (Bytes.fields slash name).filterMap component? = [.named name] := by
    rw [Bytes.fields_eq_singleton h.2.2.2,
      List.filterMap_cons_some ((component?_eq_named_iff h.2.2.2).mpr ⟨rfl, h⟩),
      List.filterMap_nil]
  rcases join_cases h dir with ⟨rfl, hjoin⟩ | ⟨d, hdir, hjoin⟩
  · have hlead : lead name = [] := by
      have habsolute : name.head? ≠ some slash := fun hs => h.2.2.2 (List.mem_of_mem_head? hs)
      simp [lead, isAbsolute, Bytes.fields_eq_singleton h.2.2.2, habsolute, h.2.1]
    rw [hjoin, components, hlead, hnamed]
    rfl
  · rw [hjoin, components_append_slash, hnamed]
    rcases hdir with rfl | ⟨rfl, hne⟩
    · rw [components_append_slash d []]
      simp [component?]
    · rw [if_neg hne]

end Path

end HelperHandoff
