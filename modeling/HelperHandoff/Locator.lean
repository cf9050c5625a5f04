import HelperHandoff.Act
import HelperHandoff.Config

set_option autoImplicit false

namespace HelperHandoff

/-- Something that can be connected to, and started when it does not run. -/
structure Endpoint (σ κ : Type) where
  connect : σ → Except IoError κ × σ
  spawn : σ → Except IoError Unit × List Event × σ
  address : σ → Bytes
  program : σ → Bytes

structure Search (σ κ : Type) where
  result : Except HandoffError κ
  acts : List Act
  endpoint : σ

namespace Search

variable {σ κ : Type}

def after (acts : List Act) (s : Search σ κ) : Search σ κ := { s with acts := acts ++ s.acts }

@[simp] theorem result_after (acts : List Act) (s : Search σ κ) :
    (s.after acts).result = s.result := rfl

@[simp] theorem acts_after (acts : List Act) (s : Search σ κ) :
    (s.after acts).acts = acts ++ s.acts := rfl

@[simp] theorem endpoint_after (acts : List Act) (s : Search σ κ) :
    (s.after acts).endpoint = s.endpoint := rfl

end Search

namespace Endpoint

variable {σ κ : Type} (E : Endpoint σ κ)

/-- There is a pause between two attempts, none after the last. -/
def pauseBefore (intervalMs : Nat) : Nat → List Act
  | 0 => []
  | _ + 1 => [.pause intervalMs]

/-- Attempt `k` and those after it, `left` of them in all. -/
def reconnect (policy : ConnectRetry) : (left k : Nat) → σ → Search σ κ
  | 0, _, s => ⟨.error (.connectTimeout (E.address s) policy.attempts), [.address], s⟩
  | left + 1, k, s =>
    match E.connect s with
    | (.ok c, t) => ⟨.ok c, [.connect none, .report (.helperConnected k)], t⟩
    | (.error e, t) =>
      (reconnect policy left (k + 1) t).after
        (.connect (some e) :: .report (.connectRetry k e) :: pauseBefore policy.intervalMs left)

/-- A connection to a helper. At most one helper is started; whatever follows only reconnects. -/
def locate (policy : ConnectRetry) (s : σ) : Search σ κ :=
  match E.connect s with
  | (.ok c, t) => ⟨.ok c, [.connect none, .report (.helperConnected 0)], t⟩
  | (.error e, t) =>
    let first : List Act := [.connect (some e), .report (.helperUnreachable e)]
    match E.spawn t with
    | (.error f, es, u) =>
      ⟨.error (.bootstrap (E.program u) f),
        first ++ .spawn (some f) :: es.map .report ++ [.program], u⟩
    | (.ok (), es, u) =>
      (E.reconnect policy policy.attempts 1 u).after (first ++ .spawn none :: es.map .report)

end Endpoint

def Endpoint.scripted (connects : List (Option IoError)) (spawn : Option IoError)
    (address program : Bytes) : Endpoint Nat Nat where
  connect n :=
    match (connects[n]? <|> connects.getLast?).join with
    | none => (.ok (n + 1), n + 1)
    | some e => (.error e, n + 1)
  spawn n :=
    match spawn with
    | none => (.ok (), [], n)
    | some e => (.error e, [], n)
  address _ := address
  program _ := program

end HelperHandoff
