import HelperHandoff.Event

set_option autoImplicit false

namespace HelperHandoff

/-- What the kernel made of one attempt to send the message. -/
inductive Transmission where
  | interrupted
  | refused (error : IoError)
  | accepted (bytes : Nat)
  deriving DecidableEq, Repr

inductive Act where
  | openDirectory (failure : Option IoError)
  | connect (failure : Option IoError)
  | spawn (failure : Option IoError)
  | program
  | address
  | pause (ms : Nat)
  | createCounter (failure : Option IoError)
  | transmit (answer : Transmission)
  | removeCounter (semid : Int) (failure : Option IoError)
  | execute (failure : Option IoError)
  | report (event : Event)
  deriving DecidableEq, Repr

namespace Act

def event? : Act → Option Event
  | .report e => some e
  | _ => none

def events (acts : List Act) : List Event := acts.filterMap event?

def isEndpointCall : Act → Bool
  | .connect _ | .spawn _ | .program | .address => true
  | _ => false

def calls (acts : List Act) : List Act := acts.filter isEndpointCall

@[simp] theorem events_nil : events [] = [] := rfl

@[simp] theorem events_report (e : Event) (acts : List Act) :
    events (.report e :: acts) = e :: events acts := rfl

theorem events_cons (a : Act) (acts : List Act) :
    events (a :: acts) = a.event?.toList ++ events acts := by
  cases h : a.event? <;> simp [events, h]

@[simp] theorem events_append (a b : List Act) : events (a ++ b) = events a ++ events b := by
  simp [events]

theorem events_map_report (es : List Event) : events (es.map .report) = es := by
  induction es with
  | nil => rfl
  | cons e es ih => simp [ih]

end Act

end HelperHandoff
