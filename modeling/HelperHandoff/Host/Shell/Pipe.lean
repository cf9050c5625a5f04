import HelperHandoff.Bytes

set_option autoImplicit false

namespace HelperHandoff.Host.Shell

structure Pipe where
  front : List Bytes
  back : List Bytes
  size : Nat
  /-- Somebody outside takes all that is written. -/
  drained : Bool
  deriving Repr

namespace Pipe

def empty (drained : Bool) : Pipe := ⟨[], [], 0, drained⟩

def capacity : Nat := 65536

def atomic : Nat := 4096

def content (p : Pipe) : Bytes := (p.front ++ p.back.reverse).flatten

def push (p : Pipe) (b : Bytes) : Pipe :=
  if b.isEmpty then p else { p with back := b :: p.back, size := p.size + b.length }

def room (p : Pipe) : Nat := if p.drained then capacity else capacity - p.size

/-- The first bytes of pieces, and what is left of the pieces. A piece is looked at only as far as
it is taken. -/
def cut : Nat → List Bytes → Bytes × List Bytes
  | _, [] => ([], [])
  | n, c :: cs =>
    if n = 0 then ([], c :: cs)
    else match c.drop n with
      | [] =>
        let (more, rest) := cut (n - c.length) cs
        (c ++ more, rest)
      | left => (c.take n, left :: cs)

def take (p : Pipe) (n : Nat) : Bytes × Pipe :=
  match cut n p.front with
  | (taken, []) =>
    let (more, rest) := cut (n - taken.length) p.back.reverse
    let all := taken ++ more
    (all, { p with front := rest, back := [], size := p.size - all.length })
  | (taken, left) => (taken, { p with front := left, size := p.size - taken.length })

theorem cut_append (n : Nat) (cs : List Bytes) :
    (cut n cs).1 ++ (cut n cs).2.flatten = cs.flatten := by
  induction cs generalizing n with
  | nil => rfl
  | cons c cs ih =>
    unfold cut
    split
    · simp
    · split
      · simp [ih]
      · simp [← List.append_assoc, List.take_append_drop]

theorem content_push (p : Pipe) (b : Bytes) : (p.push b).content = p.content ++ b := by
  unfold push
  split
  · simp_all [content]
  · simp [content]

/-- Nothing is lost in a pipe, and nothing changes its place. -/
theorem content_take (p : Pipe) (n : Nat) : (p.take n).1 ++ (p.take n).2.content = p.content := by
  have front := cut_append n p.front
  unfold take
  split
  · next taken h =>
    rw [h] at front
    simp only [List.flatten_nil, List.append_nil] at front
    simp [content, ← front, cut_append]
  · next h =>
    rw [h] at front
    simp [content, ← front]

end Pipe

end HelperHandoff.Host.Shell
