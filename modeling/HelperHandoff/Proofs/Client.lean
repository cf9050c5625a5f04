import HelperHandoff.Client
import HelperHandoff.Proofs.Handoff.Conduct
import HelperHandoff.Proofs.Handoff.Requests
import HelperHandoff.Proofs.Handoff.Transcript
import HelperHandoff.Proofs.Invocation.Helper

/-!
The client as a program. Without the control variable it asks nobody for anything and becomes the
payload, with the arguments and the environment it was given; with it, it never does, and its status
and its last words are those of the handoff.
-/

set_option autoImplicit false

namespace HelperHandoff

structure HandoffError.Classed (e : HandoffError) : Prop where
  early : e.exitCode = 1 ↔
    (∃ what source, e = .setup what source) ∨ ∃ program source, e = .bootstrap program source
  unreached : e.exitCode = 2 ↔ ∃ socket attempts, e = .connectTimeout socket attempts
  unsent : e.exitCode = 3 ↔ (∃ text, e = .encode text) ∨ (∃ source, e = .transport source) ∨
    ∃ sent expected, e = .partialSend sent expected
  unanswered : e.exitCode = 4 ↔
    (∃ waitedMs, e = .waitTimeout waitedMs) ∨ ∃ source, e = .counterLost source
  unallocated : e.exitCode = 5 ↔ ∃ source, e = .counterAlloc source

theorem HandoffError.classed (e : HandoffError) : e.Classed := by
  cases e <;> constructor <;>
    simp [exitCode, Protocol.exitSetupFailed, Protocol.exitBootstrapFailed,
      Protocol.exitConnectTimeout, Protocol.exitSendFailed, Protocol.exitWaitTimeout,
      Protocol.exitCounterAllocFailed]

namespace Client

open Completion (Outcome)
open Counter (Store)

variable {σ κ φ : Type} (O : Outside σ κ φ) (p : ProcessView) (state : σ) (store : Store)

def outcome? : Option Outcome :=
  match Config.ofProcess p with
  | .error e => some (.error e)
  | .ok config => (Handoff.runFor O.toWorld config p state store).result?

/-- A client that runs its invocation itself. -/
structure RunsPayload : Prop extends KeepsOut O p state store where
  program : (payloadCommand O p state).program =
    PayloadProgram.resolve (O.isFile state) p.executable
  alone : ∀ a ∈ (run O p state store).acts, a.isRequest = false
  refused : ∀ e, O.execFailure (payloadCommand O p state) state = some e →
    (run O p state store).ending? = some (.exits 127
      ("kart: " ++ ("exec " ++ (payloadCommand O p state).program.display ++ ": " ++ e.message) ++
        "\n"))

/-- A client that has its invocation run by a helper. -/
structure HandsOff : Prop where
  remains : Act.Remains (run O p state store).acts
  stays : ∀ c, (run O p state store).ending? ≠ some (.becomes c)
  success : ∀ code, outcome? O p state store = some (.ok code) →
    (run O p state store).ending? = some (.exits (ExitCode.statusByte code) "") ∧
      ∃ r, (run O p state store).handoff? = some r ∧ Handoff.Reported O.toWorld r code
  failure : ∀ e, outcome? O p state store = some (.error e) →
    (run O p state store).ending? = some (.exits e.exitCode ("kart: " ++ e.message ++ "\n")) ∧
      e.Classed
  pending : outcome? O p state store = none → (run O p state store).ending? = none
  ends : O.Responsive → ∃ status said, (run O p state store).ending? = some (.exits status said)

variable {O p state store}

theorem runsPayload_of_not_requested (h : Invocation.requested p.env = false)
    (hargv : p.argv ≠ []) : RunsPayload O p state store := by
  have hkeeps := keepsOut_of_not_requested h hargv O state store
  refine ⟨hkeeps, rfl, fun a ha => ?_, fun e he => ?_⟩
  · rw [hkeeps.acts] at ha
    simp only [List.mem_cons, List.not_mem_nil, or_false] at ha
    obtain rfl | rfl := ha <;> rfl
  · have hrun : run O p state store = execute O p state := by simp [run, h]
    rw [hrun, execute, he]
    rfl

theorem conduct_handOff (O : Outside σ κ φ) (p : ProcessView) (state : σ) (store : Store) :
    (handOff O p state store).ending? = (outcome? O p state store).map endingOf ∧
      Act.Remains (handOff O p state store).acts ∧
      (∀ code, outcome? O p state store = some (.ok code) →
        ∃ r, (handOff O p state store).handoff? = some r ∧ Handoff.Reported O.toWorld r code) ∧
      (O.Responsive → (outcome? O p state store).isSome) := by
  rw [handOff, outcome?]
  cases Config.ofProcess p with
  | error e => exact ⟨rfl, Act.remains_nil, fun code h => by simp at h, fun _ => rfl⟩
  | ok config =>
    have hc := Handoff.conduct_runFor (W := O.toWorld) config p state store
    exact ⟨rfl, hc.remains, fun code h => ⟨_, rfl, hc.reported code h⟩, hc.ends⟩

theorem endingOf_exits (o : Outcome) : ∃ status said, endingOf o = .exits status said := by
  cases o with
  | ok code => exact ⟨_, _, rfl⟩
  | error e => exact ⟨_, _, rfl⟩

theorem handsOff_of_requested (h : Invocation.requested p.env = true) :
    HandsOff O p state store := by
  have hrun : run O p state store = handOff O p state store := by simp [run, h]
  obtain ⟨hending, hremains, hreported, hends⟩ := conduct_handOff O p state store
  rw [← hrun] at hending hremains hreported
  refine ⟨hremains, fun c hc => ?_, fun code ho => ⟨by rw [hending, ho]; rfl, hreported code ho⟩,
    fun e ho => ⟨by rw [hending, ho]; rfl, e.classed⟩, fun ho => by rw [hending, ho]; rfl,
    fun hr => ?_⟩
  · rw [hending, Option.map_eq_some_iff] at hc
    obtain ⟨o, -, ho⟩ := hc
    obtain ⟨status, said, he⟩ := endingOf_exits o
    rw [he] at ho
    cases ho
  · obtain ⟨o, ho⟩ := Option.isSome_iff_exists.mp (hends hr)
    obtain ⟨status, said, he⟩ := endingOf_exits o
    exact ⟨status, said, by rw [hending, ho, Option.map_some, he]⟩

def stranded : Outside Nat Unit Unit :=
  { Handoff.hangingUp with
    isFile := fun _ _ => false
    execFailure := fun _ _ => some (.system .noEntry) }

end Client

end HelperHandoff
