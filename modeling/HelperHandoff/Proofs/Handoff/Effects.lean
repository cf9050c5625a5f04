import HelperHandoff.Proofs.Completion.Frame
import HelperHandoff.Proofs.Handoff.Requests
import HelperHandoff.Proofs.Handoff.Transcript
import HelperHandoff.Proofs.Invocation.Payload
import Mathlib.Data.List.Basic

/-!
What a handoff does to others. It starts one helper at most, creates one counter at most and has
one message taken at most, each only when it is its turn; however it ends, it leaves no counter
behind, and its outcome tells what the helper has been sent.
-/

set_option autoImplicit false

namespace HelperHandoff

open Act (requests)

namespace Handoff

open Completion (Hand Kept Outcome Race)
open Counter (Guard Store)

variable {σ κ φ : Type}

/-! ### The requests of a handoff -/

/-- From the creation of the counter on: how it ends, what is asked, and what the helper gets. -/
inductive Delivered (W : World σ κ φ) (id : Int) (payload : Bytes) (bundle : Bundle φ) :
    Option Outcome → List Act → Message φ → Prop where
  | unanswered {k : Nat} : Delivered W id payload bundle none (interruptions k) .empty
  | refused {k : Nat} {e : IoError} {rest : List Act} (hr : Removals id rest) :
      Delivered W id payload bundle (some (.error (.transport e)))
        (interruptions k ++ .transmit (.refused e) :: rest) .empty
  | cut {k n : Nat} {rest : List Act} (hn : n ≠ payload.length)
      (ha : ∃ conn s, .accepted n ∈ W.answers conn ⟨payload, bundle.files⟩ s)
      (hr : Removals id rest) :
      Delivered W id payload bundle (some (.error (.partialSend n payload.length)))
        (interruptions k ++ .transmit (.accepted n) :: rest) (.ofAccepted payload bundle n)
  | whole {o? : Option Outcome} {k : Nat} {rest : List Act} {message : Message φ}
      (ho : ∀ o, o? = some o → passed o = 5) (hr : Removals id rest)
      (hm : message = .ofAccepted payload bundle payload.length) :
      Delivered W id payload bundle o?
        (interruptions k ++ .transmit (.accepted payload.length) :: rest) message

/-- The same for a whole handoff with `n` further attempts to connect, once the working directory
is open. -/
inductive Exchange (W : World σ κ φ) (n : Nat) (id : Int) (payload : Bytes) (bundle : Bundle φ) :
    Option Outcome → List Act → Message φ → Prop where
  | unfound {e : HandoffError} {search : List Act}
      (h : Sought n (.error e : Except HandoffError κ) search) :
      Exchange W n id payload bundle (some (.error e)) search .empty
  | unallocated {conn : κ} {e : IoError} {search rest : List Act} (h : Sought n (.ok conn) search)
      (hr : rest = [.createCounter (some e)] ∨
        ∃ removals, Removals id removals ∧ rest = .createCounter none :: removals) :
      Exchange W n id payload bundle (some (.error (.counterAlloc e))) (search ++ rest) .empty
  | allocated {conn : κ} {o? : Option Outcome} {search rest : List Act} {message : Message φ}
      (h : Sought n (.ok conn) search) (hd : Delivered W id payload bundle o? rest message) :
      Exchange W n id payload bundle o? (search ++ .createCounter none :: rest) message

theorem requests_after (acts : List Act) (r : Report σ κ φ) :
    requests (r.after acts).acts = requests acts ++ requests r.acts :=
  Act.requests_append acts r.acts

theorem requests_giveUp (e : HandoffError) (acts : List Act) (conn : κ) (message : Message φ)
    (early : List Hand) (g : Guard) (state : σ) (store : Store) :
    ∃ rest, Removals g.counter rest ∧
      requests (giveUp e acts conn message early g state store).acts = requests acts ++ rest :=
  ⟨_, removals_destroy g _, Act.requests_append _ _⟩

theorem requests_await (W : World σ κ φ) (config : Config) (conn : κ) (message : Message φ)
    (early : List Hand) (g : Guard) (state : σ) (store : Store) :
    Removals g.counter (requests (await W config conn message early g state store).acts) ∧
      (await W config conn message early g state store).message = message := by
  cases hm : W.monitorRefusal state with
  | some e =>
    simp only [await, hm]
    exact ⟨removals_destroy g _, rfl⟩
  | none =>
    have hr := Race.removals_run (r := Race.startAfter early g config.waitMs store) rfl
      (W.turns conn message state)
    simp only [await, hm]
    exact ⟨hr, trivial⟩

theorem delivered_deliver (W : World σ κ φ) (config : Config) (i : Invocation) (bundle : Bundle φ)
    (conn : κ) {g : Guard} (state : σ) {store : Store} (hg : g.removed = false)
    (k : Kept g.counter [] store) :
    Delivered W g.counter (i.payload (Int32.ofInt g.counter)).bytes bundle
      (deliver W config i bundle conn g state store).result?
      (requests (deliver W config i bundle conn g state store).acts)
      (deliver W config i bundle conn g state store).message := by
  have hsend := Transport.dispatched_send (i.payload (Int32.ofInt g.counter)).bytes bundle
    (W.answers conn ⟨(i.payload (Int32.ofInt g.counter)).bytes, bundle.files⟩ state)
  simp only [deliver]
  generalize Transport.send _ _ _ = s at hsend ⊢
  obtain ⟨result?, acts, message⟩ := s
  simp only at hsend ⊢
  generalize hacts : requests acts = sent at hsend
  cases hsend with
  | unanswered =>
    rw [hacts]
    exact .unanswered
  | refused =>
    obtain ⟨rest, hr, ha⟩ := requests_giveUp _ acts conn .empty _ g state store
    rw [ha, hacts, List.append_assoc]
    exact .refused hr
  | cut hn ha =>
    obtain ⟨rest, hr, hrest⟩ := requests_giveUp _ acts conn _ _ g state store
    rw [hrest, hacts, List.append_assoc]
    exact .cut hn ⟨conn, state, ha⟩ hr
  | whole =>
    -- What is left of the handoff is the wait.
    generalize hmessage : Message.ofAccepted (i.payload (Int32.ofInt g.counter)).bytes bundle
      (i.payload (Int32.ofInt g.counter)).bytes.length = message
    generalize W.meanwhile conn message state = early
    obtain ⟨hr, hm⟩ := requests_await W config conn message early g state store
    rw [requests_after, Act.requests_append, hacts, List.append_assoc, List.append_assoc]
    exact .whole (fun o ho => (await_transcript W config conn message early state hg k ho).1) hr
      (hm.trans hmessage.symm)

theorem exchange_allocate (W : World σ κ φ) (config : Config) (i : Invocation)
    (bundle : Bundle φ) {conn : κ} (state : σ) (store : Store) {n : Nat} {search : List Act}
    (h : Sought n (.ok conn) search) :
    Exchange W n store.create.1 (i.payload (Int32.ofInt store.create.1)).bytes bundle
      (allocate W config i bundle conn state store).result?
      (search ++ requests (allocate W config i bundle conn state store).acts)
      (allocate W config i bundle conn state store).message := by
  simp only [allocate]
  cases hc : W.counterRefusal state with
  | some e => exact .unallocated h (.inl rfl)
  | none =>
    cases hr : W.restRefusal state with
    | some e =>
      exact .unallocated h (.inr ⟨_, removals_destroy ⟨store.create.1, false⟩ store.create.2, rfl⟩)
    | none =>
      have hd := delivered_deliver W config i bundle conn (g := (Guard.create store).1) state rfl
        (Completion.kept_create store)
      exact .allocated h hd

theorem exchange_search (W : World σ κ φ) (config : Config) (i : Invocation) (bundle : Bundle φ)
    (state : σ) (store : Store) :
    Exchange W config.connect.attempts store.create.1
      (i.payload (Int32.ofInt store.create.1)).bytes bundle
      (search W config i bundle state store).result?
      (requests (search W config i bundle state store).acts)
      (search W config i bundle state store).message := by
  have hs := Endpoint.sought_locate (endpoint W config.helperProgram config.socketPath i.spawnEnv)
    config.connect state
  simp only [search]
  generalize Endpoint.locate _ _ _ = s at hs ⊢
  obtain ⟨result, acts, state'⟩ := s
  cases result with
  | error e => exact .unfound hs
  | ok conn =>
    have hsearch : requests (.report (.entered .locating) :: acts ++
        [.report (.entered .connected)]) = requests acts := by simp
    rw [requests_after, hsearch]
    exact exchange_allocate W config i bundle state' store hs

theorem closed_eq (r : Report σ κ φ) :
    ∃ last, requests last = [] ∧ r.closed = { r with acts := r.acts ++ last } := by
  unfold Report.closed
  split
  · exact ⟨_, rfl, rfl⟩
  · exact ⟨_, rfl, rfl⟩
  · exact ⟨[], rfl, by simp⟩

theorem run_cases (W : World σ κ φ) (config : Config) (i : Invocation) (state : σ)
    (store : Store) :
    (∃ what e, (run W config i state store).result? = some (.error (.setup what e)) ∧
      requests (run W config i state store).acts = [] ∧
      (run W config i state store).message = .empty) ∨
    ∃ cwd, W.openDirectory i.cwd state = .ok cwd ∧
      Exchange W config.connect.attempts store.create.1
        (i.payload (Int32.ofInt store.create.1)).bytes ⟨W.stdin, W.stdout, W.stderr, cwd⟩
        (run W config i state store).result? (requests (run W config i state store).acts)
        (run W config i state store).message := by
  obtain ⟨last, hlast, hclosed⟩ := closed_eq (steps W config i state store)
  simp only [run, hclosed, Act.requests_append, hlast, List.append_nil]
  simp only [steps]
  cases hd : W.openDirectory i.cwd state with
  | error e => exact .inl ⟨_, e, rfl, rfl, rfl⟩
  | ok cwd => exact .inr ⟨cwd, rfl, exchange_search W config i _ state store⟩

/-! ### How often -/

namespace Delivered

variable {W : World σ κ φ} {id : Int} {payload : Bytes} {bundle : Bundle φ} {o? : Option Outcome}
  {acts : List Act} {message : Message φ}

theorem mem (h : Delivered W id payload bundle o? acts message) {a : Act} (ha : a ∈ acts) :
    (∃ t, a = .transmit t) ∨ ∃ f, a = .removeCounter id f := by
  have hi {k : Nat} (hk : a ∈ interruptions k) : ∃ t, a = .transmit t :=
    ⟨_, List.eq_of_mem_replicate hk⟩
  cases h with
  | unanswered => exact .inl (hi ha)
  | refused hr | cut _ _ hr | whole _ hr =>
    obtain ha | ha := List.mem_append.mp ha
    · exact .inl (hi ha)
    · obtain rfl | ha := List.mem_cons.mp ha
      · exact .inl ⟨_, rfl⟩
      · exact .inr (hr a ha)

theorem countP_eq_zero (h : Delivered W id payload bundle o? acts message) {p : Act → Bool}
    (ht : ∀ t, p (.transmit t) = false) (hr : ∀ f, p (.removeCounter id f) = false) :
    acts.countP p = 0 := by
  rw [List.countP_eq_zero]
  intro a ha
  obtain ⟨t, rfl⟩ | ⟨f, rfl⟩ := h.mem ha
  · simp [ht t]
  · simp [hr f]

theorem countP_isAccepted_le (h : Delivered W id payload bundle o? acts message) :
    acts.countP Act.isAccepted ≤ 1 := by
  have hi (k : Nat) : (interruptions k).countP Act.isAccepted = 0 := by
    simp [interruptions, List.countP_replicate, Act.isAccepted]
  cases h with
  | unanswered => simp [hi]
  | refused hr | cut _ _ hr | whole _ hr =>
    have hrest := hr.countP (p := Act.isAccepted) fun _ => rfl
    simp [hi, hrest, List.countP_cons, Act.isAccepted]

end Delivered

namespace Exchange

variable {W : World σ κ φ} {n : Nat} {id : Int} {payload : Bytes} {bundle : Bundle φ}
  {o? : Option Outcome} {acts : List Act} {message : Message φ}

theorem counts (h : Exchange W n id payload bundle o? acts message) :
    acts.countP Act.isSpawn ≤ 1 ∧ acts.countP Act.isCreation ≤ 1 ∧
      acts.countP Act.isAccepted ≤ 1 := by
  cases h with
  | unfound h =>
    obtain ⟨hs, hc, ha⟩ := h.counts
    exact ⟨hs, by omega, by omega⟩
  | unallocated h hr =>
    obtain ⟨hs, hc, ha⟩ := h.counts
    obtain rfl | ⟨removals, hr, rfl⟩ := hr
    · simp [hs, hc, ha, Act.isSpawn, Act.isCreation, Act.isAccepted]
    · have hs' := hr.countP (p := Act.isSpawn) fun _ => rfl
      have hc' := hr.countP (p := Act.isCreation) fun _ => rfl
      have ha' := hr.countP (p := Act.isAccepted) fun _ => rfl
      simp [hs, hc, ha, hs', hc', ha', List.countP_cons, Act.isSpawn, Act.isCreation,
        Act.isAccepted]
  | allocated h hd =>
    obtain ⟨hs, hc, ha⟩ := h.counts
    have hs' := hd.countP_eq_zero (p := Act.isSpawn) (fun _ => rfl) fun _ => rfl
    have hc' := hd.countP_eq_zero (p := Act.isCreation) (fun _ => rfl) fun _ => rfl
    have ha' := hd.countP_isAccepted_le
    simp [hs, hc, ha, hs', hc', ha', List.countP_cons, Act.isSpawn, Act.isCreation,
      Act.isAccepted]

theorem connected_before_created (h : Exchange W n id payload bundle o? acts message)
    {before after : List Act} (hs : acts = before ++ .createCounter none :: after) :
    .connect none ∈ before := by
  have hsought {result : Except HandoffError κ} {search : List Act}
      (h : Sought n result search) : .createCounter none ∉ search := h.not_mem nofun nofun
  have hfound {conn : κ} {search rest : List Act} (h : Sought n (.ok conn) search)
      (hs : search ++ rest = before ++ .createCounter none :: after) : .connect none ∈ before := by
    obtain ⟨t, rfl, -⟩ | ⟨t, rfl, ht⟩ := List.append_eq_append_iff.mp hs
    · exact List.mem_append_left t h.connected
    · cases t with
      | nil => simpa using h.connected
      | cons a t =>
        obtain rfl := (List.cons.inj ht).1
        exact absurd (by simp) (hsought h)
  cases h with
  | unfound h => exact absurd (by simp [hs]) (hsought h)
  | unallocated h hr => exact hfound h hs
  | allocated h hd => exact hfound h hs

/-- A message that is taken has only a search, a creation and interruptions before it, and only
removals behind it. -/
theorem of_mem_accepted (h : Exchange W n id payload bundle o? acts message) {m : Nat}
    (hm : .transmit (.accepted m) ∈ acts) :
    ∃ (conn : κ) (search : List Act) (k : Nat) (rest : List Act),
      Sought n (.ok conn) search ∧ Removals id rest ∧
      acts =
        search ++ .createCounter none :: interruptions k ++ .transmit (.accepted m) :: rest := by
  cases h with
  | unfound h => exact absurd hm (h.not_mem nofun nofun)
  | unallocated h hr =>
    have hrest := (List.mem_append.mp hm).resolve_left (h.not_mem nofun nofun)
    obtain rfl | ⟨removals, hr, rfl⟩ := hr
    · simp at hrest
    · simp [hr.not_mem] at hrest
  | @allocated conn _ search rest _ h hd =>
    have hrest : .transmit (.accepted m) ∈ rest := by
      simpa [h.not_mem] using hm
    cases hd with
    | unanswered => simp [not_mem_interruptions] at hrest
    | refused hr => simp [not_mem_interruptions, hr.not_mem] at hrest
    | @cut k _ rest _ _ hr | @whole _ k rest _ _ hr =>
      simp only [List.mem_append, not_mem_interruptions, hr.not_mem, List.mem_cons, ne_eq,
        reduceCtorEq, not_false_eq_true, implies_true, false_or, or_false, Act.transmit.injEq,
        Transmission.accepted.injEq] at hrest
      subst hrest
      exact ⟨conn, search, k, rest, h, hr, by simp⟩

theorem created_before_accepted {store : Store}
    (h : Exchange W n store.create.1 payload bundle o? acts message)
    {before after : List Act} {m : Nat} (hs : acts = before ++ .transmit (.accepted m) :: after) :
    .createCounter none ∈ before ∧ (Act.replay before store).value? store.create.1 = some 0 := by
  obtain ⟨conn, search, k, rest, hsearch, hr, ha⟩ := h.of_mem_accepted (m := m) (by simp [hs])
  have hfront : .transmit (.accepted m) ∉ search ++ .createCounter none :: interruptions k := by
    simp [hsearch.not_mem, not_mem_interruptions]
  rw [hs] at ha
  obtain ⟨rfl, -, -⟩ :=
    (List.append_cons_inj_of_notMem hfront (hr.not_mem nofun)).mp ha.symm
  refine ⟨by simp, ?_⟩
  have hi : Act.replay (interruptions k) store.create.2 = store.create.2 := by
    refine Act.replay_of_idle (fun a ha s => ?_) _
    rw [List.eq_of_mem_replicate ha]
    rfl
  have hreplay : Act.replay (search ++ .createCounter none :: interruptions k) store =
      store.create.2 := (hsearch.replay_append _ store).trans hi
  rw [hreplay]
  exact store.value?_create

/-! ### By outcome -/

theorem not_setup {what : String} {e : IoError} :
    ¬Exchange W n id payload bundle (some (.error (.setup what e))) acts message := by
  intro h
  cases h with
  | unfound h => cases h
  | allocated h hd =>
    cases hd with
    | whole ho => cases ho _ rfl

theorem not_encode {text : String} :
    ¬Exchange W n id payload bundle (some (.error (.encode text))) acts message := by
  intro h
  cases h with
  | unfound h => cases h
  | allocated h hd =>
    cases hd with
    | whole ho => cases ho _ rfl

theorem of_bootstrap {program : Bytes} {f : IoError}
    (h : Exchange W n id payload bundle (some (.error (.bootstrap program f))) acts message) :
    (∃ e, acts = [.connect (some e), .spawn (some f)]) ∧ message = .empty := by
  cases h with
  | unfound h =>
    cases h with
    | unstarted => exact ⟨⟨_, rfl⟩, rfl⟩
  | allocated h hd =>
    cases hd with
    | whole ho => cases ho _ rfl

theorem of_connectTimeout {socket : Bytes} {k : Nat}
    (h : Exchange W n id payload bundle (some (.error (.connectTimeout socket k))) acts message) :
    k = n ∧ message = .empty ∧
      ∃ e es, es.length = k ∧ acts = .connect (some e) :: .spawn none :: unanswered es := by
  cases h with
  | unfound h =>
    cases h with
    | unreached hl => exact ⟨rfl, rfl, _, _, hl, rfl⟩
  | allocated h hd =>
    cases hd with
    | whole ho => cases ho _ rfl

theorem of_transport {e : IoError}
    (h : Exchange W n id payload bundle (some (.error (.transport e))) acts message) :
    (∀ m, .transmit (.accepted m) ∉ acts) ∧ message = .empty := by
  cases h with
  | unfound h => cases h
  | allocated h hd =>
    cases hd with
    | refused hr => exact ⟨fun m => by simp [h.not_mem, not_mem_interruptions, hr.not_mem], rfl⟩
    | whole ho => cases ho _ rfl

theorem of_partialSend {sent expected : Nat}
    (h : Exchange W n id payload bundle (some (.error (.partialSend sent expected))) acts message) :
    expected = payload.length ∧ sent ≠ expected ∧
      (∃ conn s, .accepted sent ∈ W.answers conn ⟨payload, bundle.files⟩ s) ∧
      .transmit (.accepted sent) ∈ acts ∧ message = .ofAccepted payload bundle sent := by
  cases h with
  | unfound h => cases h
  | allocated h hd =>
    cases hd with
    | cut hn ha hr => exact ⟨rfl, hn, ha, by simp, rfl⟩
    | whole ho => cases ho _ rfl

theorem of_complete {o : Outcome} (ho : passed o = 5)
    (h : Exchange W n id payload bundle (some o) acts message) :
    .transmit (.accepted payload.length) ∈ acts ∧
      message = .ofAccepted payload bundle payload.length := by
  cases h with
  | unfound h => cases h <;> cases ho
  | unallocated => cases ho
  | allocated h hd =>
    cases hd with
    | refused | cut => cases ho
    | whole _ _ hm => exact ⟨by simp, hm⟩

end Exchange

/-! ### The counters -/

theorem cleared_giveUp (e : HandoffError) (acts : List Act) (conn : κ) (message : Message φ)
    (early : List Hand) {g : Guard} (hg : g.removed = false) (state : σ) (store : Store) :
    store.Cleared g.counter (giveUp e acts conn message early g state store).store :=
  (Guard.cleared_drop hg _).after fun _ hj => Hand.value?_actAll_ne early hj store

theorem cleared_await (W : World σ κ φ) (config : Config) (conn : κ) (message : Message φ)
    (early : List Hand) {g : Guard} (state : σ) {store : Store} (hg : g.removed = false)
    (k : Kept g.counter [] store) {o : Outcome}
    (h : (await W config conn message early g state store).result? = some o) :
    store.Cleared g.counter (await W config conn message early g state store).store := by
  cases hm : W.monitorRefusal state with
  | some e =>
    simp only [await, hm]
    exact cleared_giveUp _ _ _ _ early hg _ store
  | none =>
    simp only [await, hm] at h ⊢
    exact Race.cleared_of_returned hg k early config.waitMs _ h

theorem cleared_deliver (W : World σ κ φ) (config : Config) (i : Invocation) (bundle : Bundle φ)
    (conn : κ) {g : Guard} (state : σ) {store : Store} (hg : g.removed = false)
    (k : Kept g.counter [] store) {o : Outcome}
    (h : (deliver W config i bundle conn g state store).result? = some o) :
    store.Cleared g.counter (deliver W config i bundle conn g state store).store := by
  simp only [deliver] at h ⊢
  split at h
  · cases h
  · exact cleared_giveUp _ _ _ _ _ hg _ store
  · exact cleared_await W config conn _ _ state hg k h

theorem value?_allocate (W : World σ κ φ) (config : Config) (i : Invocation) (bundle : Bundle φ)
    (conn : κ) (state : σ) (store : Store) {o : Outcome}
    (h : (allocate W config i bundle conn state store).result? = some o) (j : Int) :
    (allocate W config i bundle conn state store).store.value? j = store.value? j := by
  simp only [allocate] at h ⊢
  split at h
  · rfl
  · have hg : (Guard.mk store.create.1 false).removed = false := rfl
    exact (Guard.cleared_drop hg store.create.2).of_create j
  · have hc := cleared_deliver W config i bundle conn (g := (Guard.create store).1) state rfl
      (Completion.kept_create store) h
    exact hc.of_create j

theorem value?_run (W : World σ κ φ) (config : Config) (i : Invocation) (state : σ)
    (store : Store) {o : Outcome} (h : (run W config i state store).result? = some o) (j : Int) :
    (run W config i state store).store.value? j = store.value? j := by
  obtain ⟨last, -, hclosed⟩ := closed_eq (steps W config i state store)
  simp only [run, hclosed] at h ⊢
  simp only [steps] at h ⊢
  split at h
  · rfl
  · simp only [search] at h ⊢
    split at h
    · rfl
    · exact value?_allocate W config i _ _ _ store h j

/-! ### The whole -/

/-- What has become of everything once a handoff has returned this outcome. -/
structure Aftermath (W : World σ κ φ) (config : Config) (i : Invocation) (state : σ)
    (store : Store) (r : Report σ κ φ) (o : Outcome) : Prop where
  /-- The counter of this handoff is gone, and every other one is as it was. -/
  cleared : store.Cleared store.create.1 r.store
  setup : ∀ what e, o = .error (.setup what e) → requests r.acts = [] ∧ r.message = .empty
  bootstrap : ∀ program f, o = .error (.bootstrap program f) →
    (∃ e, requests r.acts = [.connect (some e), .spawn (some f)]) ∧ r.message = .empty
  connectTimeout : ∀ socket n, o = .error (.connectTimeout socket n) →
    n = config.connect.attempts ∧ r.message = .empty ∧
      ∃ e es, es.length = n ∧
        requests r.acts = .connect (some e) :: .spawn none :: unanswered es
  encode : ∀ text, o ≠ .error (.encode text)
  transport : ∀ e, o = .error (.transport e) →
    (∀ n, .transmit (.accepted n) ∉ r.acts) ∧ r.message = .empty
  partialSend : ∀ sent expected, o = .error (.partialSend sent expected) →
    ∃ cwd, W.openDirectory i.cwd state = .ok cwd ∧
      expected = (i.payload (Int32.ofInt store.create.1)).bytes.length ∧ sent ≠ expected ∧
      .transmit (.accepted sent) ∈ r.acts ∧
      r.message = .ofAccepted (i.payload (Int32.ofInt store.create.1)).bytes
        ⟨W.stdin, W.stdout, W.stderr, cwd⟩ sent ∧
      ((∀ conn message s n, .accepted n ∈ W.answers conn message s → n ≤ message.bytes.length) →
        sent < expected)
  complete : (∃ code, o = .ok code) ∨ (∃ waitedMs, o = .error (.waitTimeout waitedMs)) ∨
      (∃ source, o = .error (.counterLost source)) →
    ∃ cwd, W.openDirectory i.cwd state = .ok cwd ∧
      .transmit (.accepted (i.payload (Int32.ofInt store.create.1)).bytes.length) ∈ r.acts ∧
      r.message = ⟨(i.payload (Int32.ofInt store.create.1)).bytes,
        [W.stdin, W.stdout, W.stderr, cwd]⟩

theorem aftermath_run (W : World σ κ φ) (config : Config) (i : Invocation) (state : σ)
    (store : Store) {o : Outcome} (h : (run W config i state store).result? = some o) :
    Aftermath W config i state store (run W config i state store) o := by
  have hcleared : store.Cleared store.create.1 (run W config i state store).store :=
    ⟨(value?_run W config i state store h _).trans store.value?_of_new,
      fun j _ => value?_run W config i state store h j⟩
  obtain ⟨what, e, hr, hreq, hm⟩ | ⟨cwd, hd, hx⟩ := run_cases W config i state store
  · obtain rfl := Option.some.inj (hr.symm.trans h)
    exact ⟨hcleared, fun _ _ _ => ⟨hreq, hm⟩, nofun, nofun, nofun, nofun, nofun, by simp⟩
  rw [h] at hx
  refine
    { cleared := hcleared
      setup := ?_
      bootstrap := ?_
      connectTimeout := ?_
      encode := ?_
      transport := ?_
      partialSend := ?_
      complete := ?_ }
  · rintro what e rfl
    exact absurd hx Exchange.not_setup
  · rintro program f rfl
    exact hx.of_bootstrap
  · rintro socket n rfl
    exact hx.of_connectTimeout
  · rintro text rfl
    exact absurd hx Exchange.not_encode
  · rintro e rfl
    obtain ⟨ha, hm⟩ := hx.of_transport
    exact ⟨fun n hn => ha n ((Act.mem_requests_iff rfl).mpr hn), hm⟩
  · rintro sent expected rfl
    obtain ⟨rfl, hne, ⟨conn, s, hin⟩, ha, hm⟩ := hx.of_partialSend
    refine ⟨cwd, hd, rfl, hne, (Act.mem_requests_iff rfl).mp ha, hm, fun hk => ?_⟩
    exact Nat.lt_of_le_of_ne (hk _ _ _ _ hin) hne
  · intro ho
    have hp : passed o = 5 := by
      obtain ⟨code, rfl⟩ | ⟨waitedMs, rfl⟩ | ⟨source, rfl⟩ := ho <;> rfl
    obtain ⟨ha, hm⟩ := hx.of_complete hp
    have hne : (i.payload (Int32.ofInt store.create.1)).bytes.length ≠ 0 := fun hz =>
      (i.payload (Int32.ofInt store.create.1)).bytes_ne_nil (List.length_eq_zero_iff.mp hz)
    refine ⟨cwd, hd, (Act.mem_requests_iff rfl).mp ha, ?_⟩
    rw [hm, Message.ofAccepted, if_neg hne, List.take_length]
    rfl

end Handoff

end HelperHandoff
