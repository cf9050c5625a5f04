import HelperHandoff.Proofs.Counter.Waiter
import Mathlib.Data.List.Induction

set_option autoImplicit false

namespace HelperHandoff.Completion

open Counter (Guard Store)

/-- The outcome that a client has settled on, from the moment it knows it. -/
def Stage.outcome? : Stage → Option Outcome
  | .receiving | .reading _ => none
  | .removing o | .joining o | .returned o => some o

namespace Race

def id (r : Race) : Int := r.client.guard.counter

inductive Steps : Turn → Race → Race → Prop where
  | calls {r : Race} (h : r.store.stage? r.client.monitor = some .calling) :
      Steps (.own .monitorCalls) r { r with store := r.store.call r.client.monitor }
  | interrupted {r : Race} (h : r.store.stage? r.client.monitor = some .parked) :
      Steps (.own .monitorInterrupted) r { r with store := r.store.interrupt r.client.monitor }
  | sends {r : Race} {f : Option Errno}
      (h : r.store.stage? r.client.monitor = some (.returned f)) (hs : r.client.sent = false) :
      Steps (.own .monitorSends) r
        { r with client := { r.client with sent := true, inbox := some f } }
  | wakes {r : Race} (hs : r.client.stage = .receiving) (hi : r.client.inbox = some none) :
      Steps (.own .receive) r
        { r with client := { r.client with inbox := none, stage := .reading true } }
  | hears {r : Race} {e : Errno} (hs : r.client.stage = .receiving)
      (hi : r.client.inbox = some (some e)) :
      Steps (.own .receive) r
        { r with client := { r.client with
            inbox := none, stage := .removing (.error (.counterLost (.system e))) } }
  | expires {r : Race} (hs : r.client.stage = .receiving) (hi : r.client.inbox = none) :
      Steps (.own .deadline) r { r with client := { r.client with stage := .reading false } }
  | reads {r : Race} {woken : Bool} (hs : r.client.stage = .reading woken) :
      Steps (.own .read) r
        { r with client := { r.client with
            stage := .removing (judge r.client.timeoutMs woken (r.store.read r.id))
            acts := r.client.acts ++
              judgeActs r.id woken (judge r.client.timeoutMs woken (r.store.read r.id)) } }
  | removes {r : Race} {o : Outcome} (hs : r.client.stage = .removing o)
      (hf : (r.client.guard.destroy r.store).failure = none) :
      Steps (.own .remove) r
        { r with
          store := (r.client.guard.destroy r.store).store
          client := { r.client with
            guard := (r.client.guard.destroy r.store).guard
            stage := .joining o
            acts := r.client.acts ++ (r.client.guard.destroy r.store).acts } }
  | misses {r : Race} {o : Outcome} {e : Errno} (hs : r.client.stage = .removing o)
      (hf : (r.client.guard.destroy r.store).failure = some e) :
      Steps (.own .remove) r
        { r with
          store := (r.client.guard.destroy r.store).store
          client := { r.client with
            guard := (r.client.guard.destroy r.store).guard
            stage := .returned o
            acts := r.client.acts ++ ((r.client.guard.destroy r.store).acts ++
              [.report (.counterRemoveFailed r.id (.system e))]) } }
  | joins {r : Race} {o : Outcome} (hs : r.client.stage = .joining o)
      (h : r.client.sent = true) :
      Steps (.own .join) r { r with client := { r.client with stage := .returned o } }
  | acts {r : Race} (h : Hand) :
      Steps (.other h) r
        { r with
          store := (h.act r.id r.store).2
          deeds := r.deeds ++ [⟨h, (h.act r.id r.store).1⟩] }

theorem steps_of_step {turn : Turn} {r r' : Race} (h : r.step turn = some r') :
    Steps turn r r' := by
  cases turn with
  | other hand =>
    obtain rfl := Option.some.inj h
    exact .acts hand
  | own m =>
    obtain ⟨⟨s, c⟩, hc, rfl⟩ := Option.map_eq_some_iff.mp h
    cases m with
    | monitorCalls =>
      simp only [Client.step] at hc
      split at hc
      · next hst => cases hc; exact .calls hst
      · cases hc
    | monitorInterrupted =>
      simp only [Client.step] at hc
      split at hc
      · next hst => cases hc; exact .interrupted hst
      · cases hc
    | monitorSends =>
      simp only [Client.step] at hc
      split at hc
      · next hst hs => cases hc; exact .sends hst hs
      · cases hc
    | receive =>
      simp only [Client.step] at hc
      split at hc
      · next hs hi => cases hc; exact .wakes hs hi
      · next hs hi => cases hc; exact .hears hs hi
      · cases hc
    | deadline =>
      simp only [Client.step] at hc
      split at hc
      · next hs hi => cases hc; exact .expires hs hi
      · cases hc
    | read =>
      simp only [Client.step] at hc
      split at hc
      · next hs => cases hc; exact .reads hs
      · cases hc
    | remove =>
      simp only [Client.step] at hc
      split at hc
      · next hs =>
        split at hc
        · next hf => cases hc; exact .removes hs hf
        · next hf => cases hc; exact .misses hs hf
      · cases hc
    | join =>
      simp only [Client.step] at hc
      split at hc
      · next hs hj => cases hc; exact .joins hs hj
      · cases hc

theorem step_of_steps {turn : Turn} {r r' : Race} (h : Steps turn r r') :
    r.step turn = some r' := by
  cases h <;> simp_all [step, Client.step, id]

theorem step_iff {turn : Turn} {r r' : Race} : r.step turn = some r' ↔ Steps turn r r' :=
  ⟨steps_of_step, step_of_steps⟩

/-! ### Runs -/

theorem run_concat (turns : List Turn) (turn : Turn) (r : Race) :
    r.run (turns ++ [turn]) = ((r.run turns).step turn).getD (r.run turns) := by
  rw [run_append, run_cons, run_nil]

theorem run_concat_cases (turns : List Turn) (turn : Turn) (r : Race) :
    r.run (turns ++ [turn]) = r.run turns ∨
      Steps turn (r.run turns) (r.run (turns ++ [turn])) := by
  rw [run_concat]
  cases h : (r.run turns).step turn with
  | none => exact .inl rfl
  | some r' => exact .inr (steps_of_step h)

theorem run_induction {P : Race → Prop} {r : Race} (start : P r) (turns : List Turn)
    (kept : ∀ turn ∈ turns, ∀ r r', Steps turn r r' → P r → P r') : P (r.run turns) := by
  induction turns using List.reverseRecOn with
  | nil => exact start
  | append_singleton turns turn ih =>
    have hp := ih fun t ht => kept t (List.mem_append_left _ ht)
    obtain h | h := run_concat_cases turns turn r
    · rw [h]; exact hp
    · exact kept turn (by simp) _ _ h hp

/-! ### What stays as it is -/

/-- The counter, the waiting time and the monitor are the same; what others did and what has been
settled on stays so. -/
structure Later (r r' : Race) : Prop where
  id : r'.id = r.id
  timeoutMs : r'.client.timeoutMs = r.client.timeoutMs
  monitor : r'.client.monitor = r.client.monitor
  deeds : r.deeds <+: r'.deeds
  outcome? : ∀ o, r.client.stage.outcome? = some o → r'.client.stage.outcome? = some o

theorem Later.refl (r : Race) : Later r r := ⟨rfl, rfl, rfl, List.prefix_refl _, fun _ h => h⟩

theorem Later.trans {r₁ r₂ r₃ : Race} (h : Later r₁ r₂) (k : Later r₂ r₃) : Later r₁ r₃ :=
  ⟨k.id.trans h.id, k.timeoutMs.trans h.timeoutMs, k.monitor.trans h.monitor,
    h.deeds.trans k.deeds, fun o ho => k.outcome? o (h.outcome? o ho)⟩

theorem Steps.later {turn : Turn} {r r' : Race} (h : Steps turn r r') : Later r r' := by
  cases h with
  | acts h => exact ⟨rfl, rfl, rfl, List.prefix_append _ _, fun _ ho => ho⟩
  | wakes hs _ | hears hs _ | expires hs _ | reads hs =>
    exact ⟨rfl, rfl, rfl, List.prefix_refl _, fun o ho => by simp [hs, Stage.outcome?] at ho⟩
  | removes hs _ | misses hs _ =>
    exact ⟨Guard.counter_destroy _ _, rfl, rfl, List.prefix_refl _,
      fun o ho => by simpa [hs, Stage.outcome?] using ho⟩
  | joins hs _ =>
    exact ⟨rfl, rfl, rfl, List.prefix_refl _,
      fun o ho => by simpa [hs, Stage.outcome?] using ho⟩
  | _ => exact ⟨rfl, rfl, rfl, List.prefix_refl _, fun _ ho => ho⟩

theorem run_later (turns : List Turn) (r : Race) : Later r (r.run turns) :=
  run_induction (P := Later r) (Later.refl r) turns fun _ _ _ _ h ih => ih.trans h.later

theorem run_later_of_isPrefix {before turns : List Turn} (h : before <+: turns) (r : Race) :
    Later (r.run before) (r.run turns) := by
  obtain ⟨after, rfl⟩ := h
  rw [run_append]
  exact run_later after _

end Race

end HelperHandoff.Completion
