import HelperHandoff.Bytes

set_option autoImplicit false

namespace HelperHandoff.Host

structure Content where
  packed : ByteArray

instance : DecidableEq Content := fun a b =>
  match ByteArray.instDecidableEq a.packed b.packed with
  | isTrue h => isTrue (congrArg Content.mk h)
  | isFalse h => isFalse fun he => h (congrArg Content.packed he)

namespace Content

def empty : Content := ⟨.empty⟩

def bytes (c : Content) : Bytes := c.packed.data.toList

instance : Repr Content := ⟨fun c n => reprPrec c.bytes n⟩

def size (c : Content) : Nat := c.packed.size

def isEmpty (c : Content) : Bool := c.size == 0

def append (c : Content) (b : Bytes) : Content := ⟨b.foldl ByteArray.push c.packed⟩

def ofBytes (b : Bytes) : Content := empty.append b

def slice (c : Content) (offset count : Nat) : Bytes :=
  (c.packed.extract offset (offset + count)).data.toList

def line (c : Content) (offset : Nat) : Bytes :=
  match c.packed.findIdx? (· == 10) offset with
  | some i => c.slice offset (i + 1 - offset)
  | none => c.slice offset c.size

def overwrite (c : Content) (offset : Nat) (b : Bytes) : Content :=
  if offset = c.size then c.append b
  else
    let before := c.slice 0 offset
    ofBytes (before ++ List.replicate (offset - before.length) 0 ++ b ++
      c.slice (offset + b.length) c.size)

theorem data_foldl_push (b : Bytes) (a : ByteArray) :
    (b.foldl ByteArray.push a).data.toList = a.data.toList ++ b := by
  induction b generalizing a with
  | nil => simp
  | cons x b ih => simp [ih]

@[simp] theorem bytes_append (c : Content) (b : Bytes) : (c.append b).bytes = c.bytes ++ b :=
  data_foldl_push b c.packed

@[simp] theorem bytes_ofBytes (b : Bytes) : (ofBytes b).bytes = b := by
  rw [ofBytes, bytes_append]
  rfl

theorem size_eq_length (c : Content) : c.size = c.bytes.length := by
  simp [size, bytes]

theorem slice_eq (c : Content) (offset count : Nat) :
    c.slice offset count = (c.bytes.drop offset).take count := by
  simp [slice, bytes, ByteArray.data_extract, List.extract_eq_take_drop]

end Content

end HelperHandoff.Host
