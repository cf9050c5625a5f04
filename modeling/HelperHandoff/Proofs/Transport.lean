import HelperHandoff.Proofs.Handoff.Requests
import HelperHandoff.Proofs.Invocation.Payload
import Mathlib.Algebra.Ring.Nat

set_option autoImplicit false

namespace HelperHandoff

/-! ### Reading -/

namespace Message

variable {φ : Type}

/-- What reads of these sizes take from a stream in all; the files come with the first byte. -/
def reads : List Nat → Message φ → Message φ
  | [], _ => empty
  | size :: sizes, m =>
    if size = 0 ∨ m.bytes = [] then reads sizes m
    else
      let rest := reads sizes ⟨m.bytes.drop size, []⟩
      ⟨m.bytes.take size ++ rest.bytes, m.files ++ rest.files⟩

theorem reads_of_end (sizes : List Nat) (m : Message φ) (h : m.bytes = []) :
    m.reads sizes = empty := by
  induction sizes with
  | nil => rfl
  | cons size sizes ih => rw [reads, if_pos (.inr h), ih]

theorem reads_of_length_le (sizes : List Nat) (m : Message φ) (h : m.bytes ≠ [])
    (hs : m.bytes.length ≤ sizes.sum) : m.reads sizes = m := by
  induction sizes generalizing m with
  | nil =>
    rw [List.sum_nil, Nat.le_zero_eq, List.length_eq_zero_iff] at hs
    exact absurd hs h
  | cons size sizes ih =>
    rw [List.sum_cons] at hs
    by_cases hz : size = 0
    · rw [reads, if_pos (.inl hz)]
      exact ih m h (by omega)
    · rw [reads, if_neg (by simp [hz, h])]
      by_cases hd : m.bytes.drop size = []
      · -- This read has reached the end.
        have htake : m.bytes.take size = m.bytes :=
          List.take_of_length_le (List.drop_eq_nil_iff.mp hd)
        simp [reads_of_end sizes ⟨m.bytes.drop size, []⟩ hd, htake, empty]
      · rw [ih ⟨m.bytes.drop size, []⟩ hd (by simp only [List.length_drop]; omega)]
        simp

end Message

/-! ### Sending -/

namespace Transport

variable {φ : Type}

theorem send_interrupted (payload : Bytes) (bundle : Bundle φ) (k : Nat)
    (answers : List Transmission) :
    send payload bundle (List.replicate k .interrupted ++ answers) =
      { send payload bundle answers with
        acts := interruptions k ++ (send payload bundle answers).acts } := by
  induction k with
  | zero => rfl
  | succ k ih =>
    rw [List.replicate_succ, List.cons_append, send, ih]
    rfl

/-- The first answer that is no interruption ends a sending. -/
theorem send_cases (payload : Bytes) (bundle : Bundle φ) {last : Transmission}
    (later : List Transmission) (hlast : last ≠ .interrupted)
    (hfit : ∀ n, last = .accepted n → n ≤ payload.length) :
    (last = .accepted payload.length ∧ send payload bundle (last :: later) =
      ⟨some (.ok ()),
        [.transmit last, .report (.handoffSent payload.length Protocol.descriptorCount)],
        Message.ofAccepted payload bundle payload.length⟩) ∨
    (∃ n, last = .accepted n ∧ n < payload.length ∧ send payload bundle (last :: later) =
      ⟨some (.error (.partialSend n payload.length)), [.transmit last],
        Message.ofAccepted payload bundle n⟩) ∨
    ∃ e, last = .refused e ∧ send payload bundle (last :: later) =
      ⟨some (.error (.transport e)), [.transmit last], .empty⟩ := by
  cases last with
  | interrupted => exact absurd rfl hlast
  | refused e => exact .inr (.inr ⟨e, rfl, rfl⟩)
  | accepted n =>
    by_cases hn : n = payload.length
    · subst hn
      exact .inl ⟨rfl, by simp [send]⟩
    · exact .inr (.inl ⟨n, rfl, Nat.lt_of_le_of_ne (hfit n rfl) hn, by simp [send, hn]⟩)

theorem requests_interruptions (k : Nat) : Act.requests (interruptions k) = interruptions k :=
  List.filter_eq_self.mpr fun a ha => by
    rw [List.eq_of_mem_replicate ha]
    rfl

theorem events_interruptions (k : Nat) : Act.events (interruptions k) = [] :=
  List.filterMap_eq_nil_iff.mpr fun a ha => by
    rw [List.eq_of_mem_replicate ha]
    rfl

structure Holds (m : Message φ) (payload : Bytes) (bundle : Bundle φ) : Prop where
  bytes : m.bytes = payload
  count : m.files.length = Protocol.descriptorCount
  stdin : m.files[Protocol.stdinSlot]? = some bundle.stdin
  stdout : m.files[Protocol.stdoutSlot]? = some bundle.stdout
  stderr : m.files[Protocol.stderrSlot]? = some bundle.stderr
  cwd : m.files[Protocol.cwdSlot]? = some bundle.cwd

theorem holds_reads {payload : Bytes} (h : payload ≠ []) (bundle : Bundle φ) {sizes : List Nat}
    (hs : payload.length ≤ sizes.sum) :
    Holds ((Message.ofAccepted payload bundle payload.length).reads sizes) payload bundle := by
  have hm : Message.ofAccepted payload bundle payload.length = ⟨payload, bundle.files⟩ := by
    rw [Message.ofAccepted, if_neg (by simpa using h), List.take_length]
  rw [hm, Message.reads_of_length_le sizes _ h hs]
  exact ⟨rfl, bundle.length_files, bundle.files_stdin, bundle.files_stdout, bundle.files_stderr,
    bundle.files_cwd⟩

/-- Whatever the kernel answers in the end, after any number of interruptions, it is asked no more.
The sending succeeds exactly if all was taken, and reports it then; and a peer that reads on has all
of it, as it has of every payload of an invocation. -/
theorem send_exact (payload : Bytes) (bundle : Bundle φ) (k : Nat) (last : Transmission)
    (later : List Transmission) (hlast : last ≠ .interrupted)
    (hfit : ∀ n, last = .accepted n → n ≤ payload.length) :
    let s := send payload bundle (List.replicate k .interrupted ++ last :: later)
    Act.requests s.acts = interruptions k ++ [.transmit last] ∧
      (s.result? = some (.ok ()) ↔ last = .accepted payload.length) ∧
      (∀ sent expected, s.result? = some (.error (.partialSend sent expected)) ↔
        last = .accepted sent ∧ sent < payload.length ∧ expected = payload.length) ∧
      (∀ e, s.result? = some (.error (.transport e)) ↔ last = .refused e) ∧
      (s.result? = some (.ok ()) →
        Act.events s.acts = [.handoffSent payload.length Protocol.descriptorCount]) ∧
      (s.result? ≠ some (.ok ()) → Act.events s.acts = []) ∧
      (s.result? = some (.ok ()) → payload ≠ [] → ∀ sizes : List Nat,
        payload.length ≤ sizes.sum → Holds (s.message.reads sizes) payload bundle) ∧
      ∀ (i : Invocation) (semid : Int32), (i.payload semid).bytes ≠ [] := by
  simp only [send_interrupted, Act.requests_append, Act.events_append, requests_interruptions,
    events_interruptions, List.nil_append]
  have hne (i : Invocation) (semid : Int32) : (i.payload semid).bytes ≠ [] :=
    (i.payload semid).bytes_ne_nil
  obtain ⟨rfl, hs⟩ | ⟨n, rfl, hlt, hs⟩ | ⟨e, rfl, hs⟩ :=
    send_cases payload bundle later hlast hfit <;> simp only [hs]
  · refine ⟨rfl, by simp, fun sent expected => iff_of_false (by simp) ?_, by simp, fun _ => rfl,
      by simp, fun _ hp sizes hsum => holds_reads hp bundle hsum, hne⟩
    rintro ⟨h, hlt, -⟩
    exact Nat.ne_of_gt hlt (Transmission.accepted.inj h)
  · refine ⟨rfl, by simpa using Nat.ne_of_lt hlt, fun sent expected => ⟨fun h => ?_, ?_⟩, by simp,
      by simp, fun _ => rfl, by simp, hne⟩
    · simp only [Option.some.injEq, Except.error.injEq, HandoffError.partialSend.injEq] at h
      obtain ⟨rfl, rfl⟩ := h
      exact ⟨rfl, hlt, rfl⟩
    · rintro ⟨h, -, rfl⟩
      rw [Transmission.accepted.inj h]
  · exact ⟨rfl, by simp, by simp, fun f => by simp, by simp, fun _ => rfl, by simp, hne⟩

/-- Two interruptions, then everything is taken; standard input and output are one file. -/
theorem send_exact_after_interruptions :
    let payload : Bytes := [123, 125]
    let bundle : Bundle Nat := ⟨7, 7, 8, 9⟩
    let s := send payload bundle [.interrupted, .interrupted, .accepted 2, .accepted 2]
    Transmission.accepted 2 ≠ .interrupted ∧
      (∀ n, Transmission.accepted 2 = .accepted n → n ≤ payload.length) ∧
      s.result? = some (.ok ()) ∧ Holds (s.message.reads [1, 0, 5]) payload bundle := by
  have hfit : ∀ n, Transmission.accepted 2 = .accepted n → n ≤ 2 := fun n h =>
    Nat.le_of_eq (Transmission.accepted.inj h).symm
  obtain ⟨-, hok, -, -, -, -, hread, -⟩ :=
    send_exact [123, 125] (⟨7, 7, 8, 9⟩ : Bundle Nat) 2 (.accepted 2) [.accepted 2] nofun hfit
  exact ⟨nofun, hfit, hok.mpr rfl, hread (hok.mpr rfl) (by decide) [1, 0, 5] (by decide)⟩

end Transport

end HelperHandoff
