set_option autoImplicit false

namespace HelperHandoff

abbrev Bytes := List UInt8

namespace Bytes

def nul : UInt8 := 0
def slash : UInt8 := 47
def dot : UInt8 := 46
def colon : UInt8 := 58
def equalsSign : UInt8 := 61

def hasNul (b : Bytes) : Bool := b.contains nul

/-- One byte more on the left: a separator opens a new field, any other byte joins the first. -/
def cut (sep x : UInt8) : List Bytes → List Bytes
  | [] => if x = sep then [[], []] else [[x]]
  | f :: fs => if x = sep then [] :: f :: fs else (x :: f) :: fs

def fields (sep : UInt8) (b : Bytes) : List Bytes := b.foldr (cut sep) [[]]

/-- Undoes `fields`: the pieces with one separator between neighbours. -/
def unfields (sep : UInt8) : List Bytes → Bytes
  | [] => []
  | [f] => f
  | f :: fs => f ++ sep :: unfields sep fs

@[simp] theorem fields_nil (sep : UInt8) : fields sep [] = [[]] := rfl

@[simp] theorem fields_cons (sep x : UInt8) (b : Bytes) :
    fields sep (x :: b) = cut sep x (fields sep b) := rfl

theorem cut_ne_nil (sep x : UInt8) (fs : List Bytes) : cut sep x fs ≠ [] := by
  cases fs <;> simp only [cut] <;> split <;> simp

theorem fields_ne_nil (sep : UInt8) (b : Bytes) : fields sep b ≠ [] := by
  cases b with
  | nil => simp
  | cons x b => exact cut_ne_nil sep x _

theorem unfields_cut (sep x : UInt8) {fs : List Bytes} (h : fs ≠ []) :
    unfields sep (cut sep x fs) = x :: unfields sep fs := by
  cases fs with
  | nil => exact absurd rfl h
  | cons f fs =>
    by_cases hx : x = sep
    · simp [cut, hx, unfields]
    · cases fs <;> simp [cut, hx, unfields]

theorem unfields_fields (sep : UInt8) (b : Bytes) : unfields sep (fields sep b) = b := by
  induction b with
  | nil => rfl
  | cons x b ih => rw [fields_cons, unfields_cut sep x (fields_ne_nil sep b), ih]

end Bytes

end HelperHandoff
