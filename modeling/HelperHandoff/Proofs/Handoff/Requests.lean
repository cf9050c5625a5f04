import HelperHandoff.Proofs.Completion.Cleanup
import HelperHandoff.Proofs.Locator
import HelperHandoff.Transport

set_option autoImplicit false

namespace HelperHandoff

namespace Act

/-- A request that others can tell has been made. -/
def isRequest : Act → Bool
  | .connect _ | .spawn _ | .createCounter _ | .transmit _ | .removeCounter _ _ => true
  | .openDirectory _ | .program | .address | .pause _ | .execute _ | .report _ => false

def requests (acts : List Act) : List Act := acts.filter isRequest

def isSpawn : Act → Bool
  | .spawn _ => true
  | _ => false

def isCreation : Act → Bool
  | .createCounter _ => true
  | _ => false

def isAccepted : Act → Bool
  | .transmit (.accepted _) => true
  | _ => false

@[simp] theorem requests_nil : requests [] = [] := rfl

@[simp] theorem requests_append (a b : List Act) : requests (a ++ b) = requests a ++ requests b :=
  List.filter_append a b

@[simp] theorem requests_report (e : Event) (acts : List Act) :
    requests (.report e :: acts) = requests acts := rfl

theorem requests_cons (a : Act) (acts : List Act) :
    requests (a :: acts) = if a.isRequest then a :: requests acts else requests acts :=
  List.filter_cons

theorem filter_map_report {p : Act → Bool} (h : ∀ e, p (.report e) = false) (es : List Event) :
    (es.map .report).filter p = [] := by
  rw [List.filter_eq_nil_iff]
  intro a ha
  obtain ⟨e, -, rfl⟩ := List.mem_map.mp ha
  simp [h e]

@[simp] theorem requests_map_report (es : List Event) : requests (es.map .report) = [] :=
  filter_map_report (fun _ => rfl) es

theorem requests_split {acts before after : List Act} {a : Act} (ha : a.isRequest = true)
    (h : acts = before ++ a :: after) :
    requests acts = requests before ++ a :: requests after := by
  rw [h, requests_append, requests_cons, if_pos ha]

theorem mem_requests_iff {a : Act} {acts : List Act} (ha : a.isRequest = true) :
    a ∈ requests acts ↔ a ∈ acts := by
  rw [requests, List.mem_filter, ha]
  exact and_iff_left rfl

theorem isRequest_of_isSpawn {a : Act} (h : a.isSpawn = true) : a.isRequest = true := by
  cases a <;> simp [isSpawn] at h
  rfl

theorem isRequest_of_isCreation {a : Act} (h : a.isCreation = true) : a.isRequest = true := by
  cases a <;> simp [isCreation] at h
  rfl

theorem isRequest_of_isAccepted {a : Act} (h : a.isAccepted = true) : a.isRequest = true := by
  cases a <;> simp [isAccepted] at h
  rfl

theorem countP_requests {p : Act → Bool} (h : ∀ {a}, p a = true → a.isRequest = true)
    (acts : List Act) : (requests acts).countP p = acts.countP p := by
  rw [requests, List.countP_filter]
  refine List.countP_congr fun a _ => ?_
  rw [Bool.and_eq_true]
  exact ⟨And.left, fun ha => ⟨ha, h ha⟩⟩

def onCounters : Act → Counter.Store → Counter.Store
  | .createCounter none, s => s.create.2
  | .removeCounter id _, s => (s.remove id).2
  | _, s => s

/-- The counters once a client has had its way that far, and nobody else. -/
def replay (acts : List Act) (s : Counter.Store) : Counter.Store :=
  acts.foldl (fun s a => a.onCounters s) s

@[simp] theorem replay_append (a b : List Act) (s : Counter.Store) :
    replay (a ++ b) s = replay b (replay a s) := by
  simp [replay]

theorem replay_requests (acts : List Act) (s : Counter.Store) :
    replay (requests acts) s = replay acts s := by
  induction acts generalizing s with
  | nil => rfl
  | cons a acts ih =>
    cases a <;> exact ih _

theorem replay_of_idle {acts : List Act} (h : ∀ a ∈ acts, ∀ s, a.onCounters s = s)
    (s : Counter.Store) : replay acts s = s := by
  induction acts with
  | nil => rfl
  | cons a acts ih =>
    rw [replay, List.foldl_cons, h a List.mem_cons_self]
    exact ih fun b hb => h b (List.mem_cons_of_mem a hb)

end Act

open Act (requests)

/-! ### Searching -/

def unanswered (es : List IoError) : List Act := es.map fun e => .connect (some e)

/-- How a search ends that has `n` further attempts once it has started a helper, and all its
requests until then. -/
inductive Sought (n : Nat) {κ : Type} : Except HandoffError κ → List Act → Prop where
  | atOnce {conn : κ} : Sought n (.ok conn) [.connect none]
  | later {conn : κ} {e : IoError} {es : List IoError} (h : es.length < n) :
      Sought n (.ok conn) (.connect (some e) :: .spawn none :: (unanswered es ++ [.connect none]))
  | unstarted {program : Bytes} {e f : IoError} :
      Sought n (.error (.bootstrap program f)) [.connect (some e), .spawn (some f)]
  | unreached {socket : Bytes} {e : IoError} {es : List IoError} (h : es.length = n) :
      Sought n (.error (.connectTimeout socket n))
        (.connect (some e) :: .spawn none :: unanswered es)

namespace Sought

variable {n : Nat} {κ : Type} {result : Except HandoffError κ} {acts : List Act}

theorem mem (h : Sought n result acts) {a : Act} (ha : a ∈ acts) :
    (∃ f, a = .connect f) ∨ ∃ f, a = .spawn f := by
  cases h <;>
    simp only [unanswered, List.mem_cons, List.mem_append, List.mem_map, List.not_mem_nil,
      or_false] at ha
  case atOnce => exact .inl ⟨_, ha⟩
  case later =>
    obtain rfl | rfl | ⟨e, -, rfl⟩ | rfl := ha
    · exact .inl ⟨_, rfl⟩
    · exact .inr ⟨_, rfl⟩
    · exact .inl ⟨_, rfl⟩
    · exact .inl ⟨_, rfl⟩
  case unstarted =>
    obtain rfl | rfl := ha
    · exact .inl ⟨_, rfl⟩
    · exact .inr ⟨_, rfl⟩
  case unreached =>
    obtain rfl | rfl | ⟨e, -, rfl⟩ := ha
    · exact .inl ⟨_, rfl⟩
    · exact .inr ⟨_, rfl⟩
    · exact .inl ⟨_, rfl⟩

theorem not_mem (h : Sought n result acts) {a : Act} (hc : ∀ f, a ≠ .connect f)
    (hs : ∀ f, a ≠ .spawn f) : a ∉ acts := fun ha =>
  (h.mem ha).elim (fun ⟨f, hf⟩ => hc f hf) fun ⟨f, hf⟩ => hs f hf

theorem countP_eq_zero (h : Sought n result acts) {p : Act → Bool}
    (hc : ∀ f, p (.connect f) = false) (hs : ∀ f, p (.spawn f) = false) : acts.countP p = 0 := by
  rw [List.countP_eq_zero]
  intro a ha
  obtain ⟨f, rfl⟩ | ⟨f, rfl⟩ := h.mem ha
  · simp [hc f]
  · simp [hs f]

theorem countP_isSpawn_le (h : Sought n result acts) : acts.countP Act.isSpawn ≤ 1 := by
  have hu (es : List IoError) : (unanswered es).countP Act.isSpawn = 0 := by
    rw [List.countP_eq_zero]
    intro a ha
    obtain ⟨e, -, rfl⟩ := List.mem_map.mp ha
    simp [Act.isSpawn]
  cases h <;> simp [List.countP_cons, hu, Act.isSpawn]

theorem counts (h : Sought n result acts) :
    acts.countP Act.isSpawn ≤ 1 ∧ acts.countP Act.isCreation = 0 ∧
      acts.countP Act.isAccepted = 0 :=
  ⟨h.countP_isSpawn_le, h.countP_eq_zero (fun _ => rfl) fun _ => rfl,
    h.countP_eq_zero (fun _ => rfl) fun _ => rfl⟩

theorem replay_append (h : Sought n result acts) (later : List Act) (s : Counter.Store) :
    Act.replay (acts ++ later) s = Act.replay later s := by
  rw [Act.replay_append]
  congr 1
  refine Act.replay_of_idle (fun a ha s => ?_) s
  obtain ⟨f, rfl⟩ | ⟨f, rfl⟩ := h.mem ha <;> rfl

theorem connected {conn : κ} (h : Sought n (.ok conn) acts) : .connect none ∈ acts := by
  cases h <;> simp

end Sought

namespace Endpoint

variable {σ κ : Type} (E : Endpoint σ κ)

@[simp] theorem requests_pauseBefore (intervalMs left : Nat) :
    requests (pauseBefore intervalMs left) = [] := by
  cases left <;> rfl

theorem requests_rounds (intervalMs left k : Nat) (es : List IoError) :
    requests (rounds intervalMs left k es) = unanswered es := by
  induction es generalizing k with
  | nil => rfl
  | cons e es ih => simp [rounds, Act.requests_cons, Act.isRequest, ih, unanswered]

theorem requests_reconnect (policy : ConnectRetry) (left k : Nat) (s : σ) :
    (∃ conn es, es.length < left ∧ (E.reconnect policy left k s).result = .ok conn ∧
      requests (E.reconnect policy left k s).acts = unanswered es ++ [.connect none]) ∨
    ∃ socket es, es.length = left ∧
      (E.reconnect policy left k s).result = .error (.connectTimeout socket policy.attempts) ∧
      requests (E.reconnect policy left k s).acts = unanswered es := by
  obtain ⟨es, u, hl, h⟩ | ⟨es, conn, v, hl, h⟩ := E.reconnect_cases policy left k s <;> rw [h]
  · exact .inr ⟨_, es, hl, rfl, by simp [requests_rounds, Act.requests_cons, Act.isRequest]⟩
  · exact .inl ⟨conn, es, hl, rfl, by simp [requests_rounds, Act.requests_cons, Act.isRequest]⟩

theorem sought_locate (policy : ConnectRetry) (s : σ) :
    Sought policy.attempts (E.locate policy s).result (requests (E.locate policy s).acts) := by
  obtain ⟨conn, t, h⟩ | ⟨e, t, f, es, u, -, h⟩ | ⟨e, t, es, u, -, h⟩ :=
    E.locate_cases policy s <;> rw [h]
  · exact .atOnce
  · simp only [Act.requests_append, Act.requests_cons, Act.requests_map_report]
    exact .unstarted
  · have hopening : requests (opening e es) = [.connect (some e), .spawn none] := by
      simp [opening, Act.requests_cons, Act.isRequest]
    rw [Search.result_after, Search.acts_after, Act.requests_append, hopening]
    obtain ⟨conn, es, hl, hr, ha⟩ | ⟨socket, es, hl, hr, ha⟩ :=
      E.requests_reconnect policy policy.attempts 1 u
    · rw [hr, ha]
      exact .later hl
    · rw [hr, ha]
      exact .unreached hl

end Endpoint

/-! ### Sending -/

def interruptions (k : Nat) : List Act := List.replicate k (.transmit .interrupted)

theorem not_mem_interruptions {a : Act} (h : a ≠ .transmit .interrupted) (k : Nat) :
    a ∉ interruptions k := fun hm => h (List.eq_of_mem_replicate hm)

namespace Transport

variable {φ : Type}

/-- A sending stops at the first answer that is no interruption, and ends as that says. -/
inductive Dispatched (payload : Bytes) (bundle : Bundle φ) (answers : List Transmission) :
    Option (Except HandoffError Unit) → List Act → Message φ → Prop where
  | unanswered {k : Nat} : Dispatched payload bundle answers none (interruptions k) .empty
  | refused {k : Nat} {e : IoError} :
      Dispatched payload bundle answers (some (.error (.transport e)))
        (interruptions k ++ [.transmit (.refused e)]) .empty
  | cut {k n : Nat} (hn : n ≠ payload.length) (ha : .accepted n ∈ answers) :
      Dispatched payload bundle answers (some (.error (.partialSend n payload.length)))
        (interruptions k ++ [.transmit (.accepted n)]) (.ofAccepted payload bundle n)
  | whole {k : Nat} :
      Dispatched payload bundle answers (some (.ok ()))
        (interruptions k ++ [.transmit (.accepted payload.length)])
        (.ofAccepted payload bundle payload.length)

theorem Dispatched.interrupted {payload : Bytes} {bundle : Bundle φ} {later : List Transmission}
    {result? : Option (Except HandoffError Unit)} {acts : List Act} {message : Message φ}
    (h : Dispatched payload bundle later result? acts message) :
    Dispatched payload bundle (.interrupted :: later) result? (.transmit .interrupted :: acts)
      message := by
  cases h with
  | @unanswered k => exact .unanswered (k := k + 1)
  | @refused k e => exact .refused (k := k + 1)
  | @cut k n hn ha => exact .cut (k := k + 1) hn (List.mem_cons_of_mem _ ha)
  | @whole k => exact .whole (k := k + 1)

theorem dispatched_send (payload : Bytes) (bundle : Bundle φ) (answers : List Transmission) :
    Dispatched payload bundle answers (send payload bundle answers).result?
      (requests (send payload bundle answers).acts) (send payload bundle answers).message := by
  induction answers with
  | nil => exact .unanswered (k := 0)
  | cons answer later ih =>
    cases answer with
    | interrupted => exact ih.interrupted
    | refused e => exact .refused (k := 0)
    | accepted n =>
      by_cases hn : n = payload.length
      · subst hn
        simp only [send, if_true]
        exact .whole (k := 0)
      · simp only [send, if_neg hn]
        exact .cut (k := 0) hn List.mem_cons_self

end Transport

/-! ### Waiting -/

def Removals (id : Int) (acts : List Act) : Prop := ∀ a ∈ acts, ∃ f, a = .removeCounter id f

theorem Removals.append {id : Int} {a b : List Act} (ha : Removals id a) (hb : Removals id b) :
    Removals id (a ++ b) := fun x hx => (List.mem_append.mp hx).elim (ha x) (hb x)

theorem Removals.not_mem {id : Int} {acts : List Act} (h : Removals id acts) {a : Act}
    (ha : ∀ f, a ≠ .removeCounter id f) : a ∉ acts := fun hm =>
  let ⟨f, hf⟩ := h a hm
  ha f hf

theorem Removals.countP {id : Int} {acts : List Act} (h : Removals id acts) {p : Act → Bool}
    (hp : ∀ f, p (.removeCounter id f) = false) : acts.countP p = 0 := by
  rw [List.countP_eq_zero]
  intro a ha
  obtain ⟨f, rfl⟩ := h a ha
  simp [hp f]

theorem removals_nil (id : Int) : Removals id [] := fun _ h => absurd h List.not_mem_nil

theorem removals_destroy (g : Counter.Guard) (s : Counter.Store) :
    Removals g.counter (requests (g.destroy s).acts) := by
  unfold Counter.Guard.destroy
  split
  · exact removals_nil _
  · intro a ha
    exact ⟨_, List.mem_singleton.mp ha⟩

namespace Completion

theorem requests_judgeActs (counter : Int) (woken : Bool) (o : Outcome) :
    requests (judgeActs counter woken o) = [] := by
  cases o with
  | error e => rfl
  | ok code => cases woken <;> rfl

namespace Race

theorem Steps.removals {turn : Turn} {r r' : Race} (h : Steps turn r r')
    (hr : Removals r.id (requests r.client.acts)) : Removals r'.id (requests r'.client.acts) := by
  have hid : r'.id = r.id := h.later.id
  rw [hid]
  cases h with
  | reads hs =>
    rw [Act.requests_append, requests_judgeActs, List.append_nil]
    exact hr
  | removes hs hf =>
    rw [Act.requests_append]
    exact hr.append (removals_destroy r.client.guard r.store)
  | misses hs hf =>
    rw [Act.requests_append, Act.requests_append]
    exact hr.append ((removals_destroy r.client.guard r.store).append (removals_nil _))
  | _ => exact hr

theorem removals_run {r : Race} (h : r.client.acts = []) (turns : List Turn) :
    Removals r.id (requests (r.run turns).client.acts) := by
  have hstart : Removals r.id (requests r.client.acts) := by
    rw [h]
    exact removals_nil _
  have hrun := run_induction (P := fun r => Removals r.id (requests r.client.acts)) hstart turns
    fun _ _ _ _ hs => hs.removals
  rwa [(run_later turns r).id] at hrun

end Race

end Completion

end HelperHandoff
