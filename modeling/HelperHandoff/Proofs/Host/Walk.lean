import HelperHandoff.Host.Tree

/-!
The ways that paths lead through a tree. A way is a row of steps: one takes the first of the names
that are left, or puts the target of a link in its place. Walking arrives where the steps end, if
they do so before too many links have been followed, and there are only few ways to be left on the
road.
-/

set_option autoImplicit false

namespace HelperHandoff.Host.View

open Bytes (slash dot)

/-- Where somebody is on a way, and the names that are left of it. -/
structure Spot where
  place : Location
  left : List Bytes
  deriving DecidableEq, Repr

def IsEntry (name : Bytes) : Prop := isHere name = false ∧ isAbove name = false

/-- One step of a way, and how many links are followed in it. -/
inductive Step (v : View) : Spot → Nat → Spot → Prop
  | stays {l name rest} (hplace : v.node? l = none ∨ v.node? l = some .directory)
      (hname : isHere name = true) : Step v ⟨l, name :: rest⟩ 0 ⟨l, rest⟩
  | climbs {l name rest} (hplace : v.node? l = none ∨ v.node? l = some .directory)
      (hname : isHere name = false) (habove : isAbove name = true) :
      Step v ⟨l, name :: rest⟩ 0 ⟨l.dropLast, rest⟩
  | enters {l name rest node} (hplace : v.node? l = some .directory) (hname : IsEntry name)
      (hlength : name.length ≤ longestName) (hnode : v.node? (l ++ [name]) = some node)
      (hlink : ∀ target, v.node? (l ++ [name]) ≠ some (.link target)) :
      Step v ⟨l, name :: rest⟩ 0 ⟨l ++ [name], rest⟩
  | follows {l name rest target} (hplace : v.node? l = some .directory) (hname : IsEntry name)
      (hlength : name.length ≤ longestName) (hnode : v.node? (l ++ [name]) = some (.link target)) :
      Step v ⟨l, name :: rest⟩ 1
        ⟨if Path.isAbsolute target then [] else l, Bytes.fields slash target ++ rest⟩

inductive Comes (v : View) : Spot → Nat → Spot → Prop
  | here (s : Spot) : Comes v s 0 s
  | head {s t u : Spot} {k n : Nat} (first : Step v s k t) (rest : Comes v t n u) :
      Comes v s (k + n) u

/-- Names are left, and there is no step to take. -/
inductive Stuck (v : View) : Spot → Prop
  | gone {l name rest} (hplace : v.node? l = none) (hname : IsEntry name) :
      Stuck v ⟨l, name :: rest⟩
  | long {l name rest} (hplace : v.node? l = some .directory) (hname : IsEntry name)
      (hlength : longestName < name.length) : Stuck v ⟨l, name :: rest⟩
  | missing {l name rest} (hplace : v.node? l = some .directory) (hname : IsEntry name)
      (hnode : v.node? (l ++ [name]) = none) : Stuck v ⟨l, name :: rest⟩
  | barred {l name rest node} (hplace : v.node? l = some node) (hnode : node ≠ .directory) :
      Stuck v ⟨l, name :: rest⟩

variable {v w : View} {s t u : Spot} {k n m : Nat}

theorem Step.deterministic {k' : Nat} {t' : Spot} (h : Step v s k t) (h' : Step v s k' t') :
    k = k' ∧ t = t' := by
  cases h with
  | enters hplace hname hlength hnode hlink =>
    cases h' with
    | follows _ _ _ hnode' => exact absurd hnode' (hlink _)
    | _ => simp_all [IsEntry]
  | follows hplace hname hlength hnode =>
    cases h' with
    | enters _ _ _ _ hlink' => exact absurd hnode (hlink' _)
    | _ => simp_all [IsEntry]
  | _ => cases h' <;> simp_all [IsEntry]

theorem Step.left_ne_nil (h : Step v s k t) : s.left ≠ [] := by
  cases h <;> exact List.cons_ne_nil _ _

theorem Step.place (h : Step v s k t) :
    v.node? s.place = none ∨ v.node? s.place = some .directory := by
  cases h with
  | stays hplace => exact hplace
  | climbs hplace => exact hplace
  | enters hplace => exact .inr hplace
  | follows hplace => exact .inr hplace

theorem Stuck.no_step (h : Stuck v s) : ¬ Step v s k t := by
  intro hstep
  cases h <;> cases hstep <;> simp_all [IsEntry] <;> omega

theorem Stuck.left_ne_nil (h : Stuck v s) : s.left ≠ [] := by
  cases h <;> exact List.cons_ne_nil _ _

theorem Step.measure (h : Step v s k t) : k = 0 ∧ t.left.length < s.left.length ∨ k = 1 := by
  cases h <;> simp

theorem progress (v : View) (s : Spot) : s.left = [] ∨ Stuck v s ∨ ∃ k t, Step v s k t := by
  obtain ⟨l, left⟩ := s
  cases left with
  | nil => exact .inl rfl
  | cons name rest =>
    right
    by_cases hdir : v.node? l = none ∨ v.node? l = some .directory
    · cases hhere : isHere name with
      | true => exact .inr ⟨0, _, .stays hdir hhere⟩
      | false =>
        cases habove : isAbove name with
        | true => exact .inr ⟨0, _, .climbs hdir hhere habove⟩
        | false =>
          rcases hdir with hgone | hdir
          · exact .inl (.gone hgone ⟨hhere, habove⟩)
          by_cases hlength : longestName < name.length
          · exact .inl (.long hdir ⟨hhere, habove⟩ hlength)
          have hlength := Nat.not_lt.mp hlength
          by_cases hlink : ∃ target, v.node? (l ++ [name]) = some (.link target)
          · obtain ⟨target, hnode⟩ := hlink
            exact .inr ⟨1, _, .follows hdir ⟨hhere, habove⟩ hlength hnode⟩
          · cases hnode : v.node? (l ++ [name]) with
            | none => exact .inl (.missing hdir ⟨hhere, habove⟩ hnode)
            | some node =>
              exact .inr ⟨0, _, .enters hdir ⟨hhere, habove⟩ hlength hnode
                fun target h => hlink ⟨target, h⟩⟩
    · rw [not_or] at hdir
      obtain ⟨node, hnode⟩ := Option.ne_none_iff_exists'.mp hdir.1
      exact .inl (.barred hnode fun h => hdir.2 (h ▸ hnode))

namespace Comes

theorem trans (h : Comes v s n t) (h' : Comes v t m u) : Comes v s (n + m) u := by
  induction h with
  | here => rwa [Nat.zero_add]
  | head first _ ih => rw [Nat.add_assoc]; exact .head first (ih h')

/-- No way from the same spot goes beyond one that ends where no step leads on. -/
theorem comes_end (h : Comes v s n t) (ht : ∀ k u, ¬ Step v t k u) (h' : Comes v s m u) :
    m ≤ n ∧ Comes v u (n - m) t := by
  induction h generalizing m with
  | here =>
    cases h' with
    | here => exact ⟨Nat.le_refl _, .here _⟩
    | head first _ => exact absurd first (ht _ _)
  | head first rest ih =>
    cases h' with
    | here => exact ⟨Nat.zero_le _, .head first rest⟩
    | head first' rest' =>
      obtain ⟨rfl, rfl⟩ := first.deterministic first'
      obtain ⟨hle, hrest⟩ := ih ht rest'
      exact ⟨Nat.add_le_add_left hle _, by rwa [Nat.add_sub_add_left]⟩

theorem eq_of_no_step (h : Comes v s n t) (hs : ∀ k u, ¬ Step v s k u) : s = t ∧ n = 0 := by
  cases h with
  | here => exact ⟨rfl, rfl⟩
  | head first _ => exact absurd first (hs _ _)

end Comes

theorem walk_of_step {links : Nat} (h : Step v s k t) (hk : k ≤ links) :
    v.walk true links s.place s.left = v.walk true (links - k) t.place t.left := by
  cases h with
  | stays hplace hname =>
    rcases hplace with hplace | hplace <;> rw [walk] <;> simp [hplace, hname]
  | climbs hplace hname habove =>
    rcases hplace with hplace | hplace <;> rw [walk] <;> simp [hplace, hname, habove]
  | @enters l name rest node hplace hname hlength hnode hlink =>
    rw [walk]
    cases node with
    | link target => exact absurd hnode (hlink target)
    | _ => simp [hplace, hname.1, hname.2, Nat.not_lt.mpr hlength, hnode]
  | follows hplace hname hlength hnode =>
    obtain ⟨links, rfl⟩ : ∃ n, links = n + 1 := ⟨links - 1, by omega⟩
    rw [walk]
    simp [hplace, hname.1, hname.2, Nat.not_lt.mpr hlength, hnode]

theorem walk_of_comes {links : Nat} (h : Comes v s n t) (hn : n ≤ links) :
    v.walk true links s.place s.left = v.walk true (links - n) t.place t.left := by
  induction h generalizing links with
  | here => rfl
  | head first rest ih =>
    rw [walk_of_step first (by omega), ih (by omega), Nat.sub_add_eq]

theorem walk_of_step_zero (h : Step v s (k + 1) t) :
    v.walk true 0 s.place s.left = .error .tooManyLinks := by
  cases h with
  | follows hplace hname hlength hnode =>
    rw [walk]
    simp [hplace, hname.1, hname.2, Nat.not_lt.mpr hlength, hnode]

theorem walk_of_stuck (h : Stuck v s) (links : Nat) :
    ∃ e, v.walk true links s.place s.left = .error e := by
  cases h with
  | gone hplace hname => exact ⟨.noEntry, by rw [walk]; simp [hplace, hname.1, hname.2]⟩
  | long hplace hname hlength =>
    exact ⟨.nameTooLong, by rw [walk]; simp [hplace, hname.1, hname.2, hlength]⟩
  | @missing l name rest hplace hname hnode =>
    by_cases hlength : longestName < name.length
    · exact ⟨.nameTooLong, by rw [walk]; simp [hplace, hname.1, hname.2, hlength]⟩
    · exact ⟨.noEntry, by rw [walk]; simp [hplace, hname.1, hname.2, hlength, hnode]⟩
  | @barred l name rest node hplace hnode =>
    refine ⟨.notDirectory, ?_⟩
    rw [walk]
    cases node <;> simp_all

/-- A walk arrives, or it fails: it gets stuck, or has more links to follow than it may. -/
theorem walk_cases (v : View) (links : Nat) (s : Spot) :
    (∃ n l, n ≤ links ∧ Comes v s n ⟨l, []⟩) ∨
    (∃ e, v.walk true links s.place s.left = .error e) ∧
      ((∃ n t, n ≤ links ∧ Comes v s n t ∧ Stuck v t) ∨ ∃ n t, links < n ∧ Comes v s n t) := by
  rcases progress v s with hnil | hstuck | ⟨k, t, hstep⟩
  · refine .inl ⟨0, s.place, Nat.zero_le _, ?_⟩
    rw [← hnil]
    exact .here s
  · exact .inr ⟨walk_of_stuck hstuck links, .inl ⟨0, s, Nat.zero_le _, .here s, hstuck⟩⟩
  · have hmeasure := hstep.measure
    by_cases hk : k ≤ links
    · rw [walk_of_step hstep hk]
      rcases walk_cases v (links - k) t with
        ⟨n, l, hn, hcomes⟩ | ⟨he, ⟨n, u, hn, hcomes, hstuck⟩ | ⟨n, u, hn, hcomes⟩⟩
      · exact .inl ⟨k + n, l, by omega, .head hstep hcomes⟩
      · exact .inr ⟨he, .inl ⟨k + n, u, by omega, .head hstep hcomes, hstuck⟩⟩
      · exact .inr ⟨he, .inr ⟨k + n, u, by omega, .head hstep hcomes⟩⟩
    · obtain rfl : k = 0 + 1 := by omega
      obtain rfl : links = 0 := by omega
      exact .inr ⟨⟨_, walk_of_step_zero hstep⟩, .inr ⟨1 + 0, t, by omega, .head hstep (.here t)⟩⟩
  termination_by (links, s.left.length)
  decreasing_by
    rcases hmeasure with ⟨rfl, hlength⟩ | rfl
    · exact Prod.Lex.right _ hlength
    · exact Prod.Lex.left _ _ (by omega)

theorem not_step_arrived {l : Location} : ¬ Step v ⟨l, []⟩ k t := fun h => h.left_ne_nil rfl

theorem walk_eq_ok_iff {links : Nat} {l : Location} :
    v.walk true links s.place s.left = .ok l ↔ ∃ n ≤ links, Comes v s n ⟨l, []⟩ := by
  constructor
  · intro h
    rcases walk_cases v links s with ⟨n, m, hn, hcomes⟩ | ⟨⟨e, he⟩, -⟩
    · have hwalk := walk_of_comes hcomes hn
      rw [h, walk] at hwalk
      cases hwalk
      exact ⟨n, hn, hcomes⟩
    · rw [h] at he
      cases he
  · rintro ⟨n, hn, hcomes⟩
    rw [walk_of_comes hcomes hn, walk]

def spotOf (cwd : Location) (p : Bytes) : Spot := ⟨origin cwd p, Bytes.fields slash p⟩

theorem resolve_eq_ok_iff {cwd l : Location} {p : Bytes} :
    v.resolve cwd p = .ok l ↔
      p ≠ [] ∧ p.length ≤ longestPath ∧ ∃ n ≤ mostLinks, Comes v (spotOf cwd p) n ⟨l, []⟩ := by
  rw [← walk_eq_ok_iff, resolve]
  by_cases hne : p = []
  · simp [hne]
  by_cases hlength : longestPath < p.length
  · simp [hne, hlength, Nat.not_le.mpr hlength]
  · simp [hne, hlength, Nat.not_lt.mp hlength, spotOf]

theorem resolveNode_eq_ok_iff {cwd : Location} {p : Bytes} {node : Node} :
    v.resolveNode cwd p = .ok node ↔
      ∃ l, v.resolve cwd p = .ok l ∧ v.node? l = some node := by
  rw [resolveNode]
  cases v.resolve cwd p with
  | error e => simp
  | ok l => cases hnode : v.node? l <;> simp [hnode]

/-! ### More names at the end -/

theorem Step.append (h : Step v s k t) (more : List Bytes) :
    Step v ⟨s.place, s.left ++ more⟩ k ⟨t.place, t.left ++ more⟩ := by
  cases h with
  | stays hplace hname => exact .stays hplace hname
  | climbs hplace hname habove => exact .climbs hplace hname habove
  | enters hplace hname hlength hnode hlink => exact .enters hplace hname hlength hnode hlink
  | follows hplace hname hlength hnode =>
    rw [List.append_assoc]
    exact .follows hplace hname hlength hnode

theorem Stuck.append (h : Stuck v s) (more : List Bytes) :
    Stuck v ⟨s.place, s.left ++ more⟩ := by
  cases h with
  | gone hplace hname => exact .gone hplace hname
  | long hplace hname hlength => exact .long hplace hname hlength
  | missing hplace hname hnode => exact .missing hplace hname hnode
  | barred hplace hnode => exact .barred hplace hnode

namespace Comes

theorem append (h : Comes v s n t) (more : List Bytes) :
    Comes v ⟨s.place, s.left ++ more⟩ n ⟨t.place, t.left ++ more⟩ := by
  induction h with
  | here => exact .here _
  | head first _ ih => exact .head (first.append more) ih

theorem split {l x : Location} {names more : List Bytes}
    (h : Comes v ⟨l, names ++ more⟩ n ⟨x, []⟩) :
    ∃ d i j, n = i + j ∧ Comes v ⟨l, names⟩ i ⟨d, []⟩ ∧ Comes v ⟨d, more⟩ j ⟨x, []⟩ := by
  have hend : ∀ k t, ¬ Step v ⟨x, []⟩ k t := fun _ _ => not_step_arrived
  rcases walk_cases v n ⟨l, names⟩ with
    ⟨i, d, hi, hfirst⟩ | ⟨-, ⟨i, t, -, hfirst, hstuck⟩ | ⟨i, t, hi, hfirst⟩⟩
  · exact ⟨d, i, n - i, by omega, hfirst, (h.comes_end hend (hfirst.append more)).2⟩
  · have hstuck := hstuck.append more
    have hrest := (h.comes_end hend (hfirst.append more)).2
    have hx := (hrest.eq_of_no_step fun _ _ => hstuck.no_step).1
    exact absurd (congrArg Spot.left hx) hstuck.left_ne_nil
  · have := (h.comes_end hend (hfirst.append more)).1
    omega

theorem slashed_iff {o d : Location} {names : List Bytes}
    (hd : v.node? d = none ∨ v.node? d = some .directory) :
    Comes v ⟨o, names ++ [[]]⟩ n ⟨d, []⟩ ↔ Comes v ⟨o, names⟩ n ⟨d, []⟩ := by
  constructor
  · intro h
    obtain ⟨d', i, j, rfl, hfirst, hrest⟩ := h.split
    cases hrest with
    | head first rest =>
      cases first with
      | stays hplace hname =>
        obtain ⟨hspot, hj⟩ := rest.eq_of_no_step fun _ _ => not_step_arrived
        cases hspot
        rw [hj]
        exact hfirst
      | climbs _ hname => exact nomatch hname
      | enters _ hname => exact nomatch hname.1
      | follows _ hname => exact nomatch hname.1
  · intro h
    have hstay : Comes v ⟨d, [[]]⟩ (0 + 0) ⟨d, []⟩ := .head (.stays hd rfl) (.here _)
    exact (h.append [[]]).trans hstay

/-- A way that comes back to where it was, with the same names ahead of it and a link behind it,
follows links for ever. -/
theorem endless {l : Location} {names more : List Bytes}
    (hloop : Comes v ⟨l, names⟩ (m + 1) ⟨l, names ++ more⟩) (count : Nat) :
    ∃ c rest, count ≤ c ∧ Comes v ⟨l, names⟩ c ⟨l, names ++ rest⟩ := by
  induction count with
  | zero => exact ⟨0, [], Nat.le_refl _, by rw [List.append_nil]; exact .here _⟩
  | succ count ih =>
    obtain ⟨c, rest, hc, hcomes⟩ := ih
    have hagain := hloop.append rest
    rw [List.append_assoc] at hagain
    exact ⟨c + (m + 1), more ++ rest, by omega, hcomes.trans hagain⟩

end Comes

/-! ### What a way depends on -/

/-- A location that is looked at on the way from a spot. -/
def Looks (v : View) (s : Spot) (x : Location) : Prop :=
  ∃ n t, Comes v s n t ∧ (x = t.place ∨ ∃ name, t.left.head? = some name ∧ x = t.place ++ [name])

theorem Looks.place (v : View) (s : Spot) : Looks v s s.place := ⟨0, s, .here s, .inl rfl⟩

theorem Looks.next {name : Bytes} (h : s.left.head? = some name) :
    Looks v s (s.place ++ [name]) := ⟨0, s, .here s, .inr ⟨name, h, rfl⟩⟩

theorem Looks.of_step {x : Location} (h : Step v s k t) (hx : Looks v t x) : Looks v s x := by
  obtain ⟨n, u, hcomes, hu⟩ := hx
  exact ⟨k + n, u, .head h hcomes, hu⟩

theorem Step.of_agree (hplace : w.node? s.place = v.node? s.place)
    (hnext : ∀ name, s.left.head? = some name →
      w.node? (s.place ++ [name]) = v.node? (s.place ++ [name]))
    (h : Step v s k t) : Step w s k t := by
  cases h with
  | stays hdir hname => exact .stays (by rwa [hplace]) hname
  | climbs hdir hname habove => exact .climbs (by rwa [hplace]) hname habove
  | enters hdir hname hlength hnode hlink =>
    have hnext := hnext _ rfl
    exact .enters (by rwa [hplace]) hname hlength (by rwa [hnext]) (by rwa [hnext])
  | follows hdir hname hlength hnode =>
    exact .follows (by rwa [hplace]) hname hlength (by rwa [hnext _ rfl])

/-- A view that agrees with another wherever that one is looked at has the same ways. -/
theorem comes_iff_of_agree (hagree : ∀ x, Looks v s x → w.node? x = v.node? x) :
    Comes w s n t ↔ Comes v s n t := by
  constructor
  · intro h
    induction h with
    | here => exact .here _
    | head first _ ih =>
      have hfirst := first.of_agree (hagree _ (.place v _)).symm
        fun _ hname => (hagree _ (.next hname)).symm
      exact .head hfirst (ih fun x hx => hagree x (.of_step hfirst hx))
  · intro h
    induction h with
    | here => exact .here _
    | head first _ ih =>
      have hfirst := first.of_agree (hagree _ (.place v _)) fun _ hname => hagree _ (.next hname)
      exact .head hfirst (ih fun x hx => hagree x (.of_step first hx))

end HelperHandoff.Host.View
