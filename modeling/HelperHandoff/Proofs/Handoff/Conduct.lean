import HelperHandoff.Handoff
import HelperHandoff.Proofs.Completion.Cleanup
import HelperHandoff.Proofs.Completion.Delivery
import HelperHandoff.Proofs.Locator

/-!
What holds of a handoff in each of its steps and so of the whole: the client never becomes another
program, a code that it returns has been left in its counter by somebody, and it returns if only the
kernel comes to an answer and its own turns come.
-/

set_option autoImplicit false

namespace HelperHandoff

def Act.isExecution : Act → Bool
  | .execute _ | .report (.payloadExec _) => true
  | _ => false

def Act.Remains (acts : List Act) : Prop := ∀ a ∈ acts, a.isExecution = false

namespace Act

@[simp] theorem remains_nil : Remains [] := nofun

@[simp] theorem remains_cons {a : Act} {acts : List Act} :
    Remains (a :: acts) ↔ a.isExecution = false ∧ Remains acts := List.forall_mem_cons

@[simp] theorem remains_append {a b : List Act} : Remains (a ++ b) ↔ Remains a ∧ Remains b :=
  List.forall_mem_append

theorem Remains.append {a b : List Act} (ha : Remains a) (hb : Remains b) : Remains (a ++ b) :=
  remains_append.mpr ⟨ha, hb⟩

end Act

open Act (Remains)

/-! ### Completions -/

namespace Completion

open Counter (Guard Store)

/-- Whoever does this to a counter reports the code, by the protocol or past it. -/
def Hand.Reports (code : Int32) : Hand → Prop
  | .publish c => c = code
  | .set v => v.toInt = code.toInt + Protocol.counterOffset
  | .remove => False

theorem Hand.reports_of_cell? {h : Hand} {v code : Int32} (hc : h.cell? = some v)
    (hv : v.toInt = code.toInt + 1000) : h.Reports code := by
  cases h with
  | publish c =>
    have he := ExitCode.toInt_of_encode? hc
    exact Int32.toInt_inj.mp (by omega)
  | set w =>
    obtain rfl := Option.some.inj hc
    exact hv
  | remove => cases hc

theorem Judged.remains {id : Int} {o : Outcome} {acts : List Act} (h : Judged id o acts) :
    Remains acts := by
  obtain rfl | ⟨code, -, rfl⟩ := h
  · exact Act.remains_nil
  · simp [Act.isExecution]

theorem remains_parting (id : Int) (foreign : Bool) : Remains (parting id foreign) := by
  cases foreign <;> simp [parting, Act.isExecution]

theorem Told.remains {id : Int} {deeds : List Deed} {stage : Stage} {acts : List Act}
    (h : Told id deeds stage acts) : Remains acts := by
  cases stage with
  | receiving | reading =>
    obtain rfl := h
    exact Act.remains_nil
  | removing => exact Judged.remains h
  | joining =>
    obtain ⟨-, judged, hj, rfl⟩ := h
    exact hj.remains.append (remains_parting id false)
  | returned =>
    obtain ⟨judged, hj, rfl⟩ := h
    exact hj.remains.append (remains_parting id _)

namespace Race

theorem result?_run {r : Race} (h : r.result?.isSome) (later : List Turn) :
    (r.run later).result?.isSome := by
  obtain ⟨o, ho⟩ := Option.isSome_iff_exists.mp h
  have hrank : 4 ≤ (r.run later).rank := by
    have hr : r.rank = 4 := by simp [rank, stage_of_result? ho, Stage.rank]
    exact hr ▸ rank_le_run later r
  cases hs : (r.run later).client.stage with
  | returned o' => simp [result?, Client.result?, hs]
  | _ => simp [rank, hs, Stage.rank] at hrank

variable {g : Guard} {s : Store}

theorem result?_of_closing (hg : g.removed = false) (k : Kept g.counter [] s) (early : List Hand)
    (timeoutMs : Nat) (before after : List Turn) :
    ((startAfter early g timeoutMs s).run (before ++ closing ++ after)).result?.isSome := by
  have hs := run_sound (sound_startAfter hg k early timeoutMs) before
  rw [run_append, run_append]
  exact result?_run hs.closing after

theorem reported_of_returned (hg : g.removed = false) (k : Kept g.counter [] s)
    (early : List Hand) (timeoutMs : Nat) (turns : List Turn) {code : Int32}
    (h : ((startAfter early g timeoutMs s).run turns).result? = some (.ok code)) :
    ∃ hand ∈ early ++ Turn.hands turns, hand.Reports code := by
  obtain ⟨before, woken, hr, ho⟩ | ⟨before, e, -, ho⟩ :=
    run_settled (r := startAfter early g timeoutMs s) rfl turns (outcome?_of_result? h)
  · have hs := run_sound (sound_startAfter hg k early timeoutMs) before
    obtain ⟨v, hv, hne, hcode⟩ := hs.value_of_verdict hr.stage ho.symm
    have hleft := (hs.kept (by simp [hr.stage, Stage.isOver])).value
    obtain ⟨d, hd, -, hc⟩ := exists_deed_of_left (hleft.symm.trans hv) hne
    refine ⟨d.hand, ?_, Hand.reports_of_cell? hc hcode⟩
    have hmem := List.mem_map_of_mem (f := Deed.hand) hd
    have hearly : (startAfter early g timeoutMs s).deeds.map Deed.hand = early :=
      hands_actAll g.counter early s
    rw [hands_run, hearly] at hmem
    obtain hm | hm := List.mem_append.mp hmem
    · exact List.mem_append_left _ hm
    · exact List.mem_append_right _ ((hr.before_isPrefix.filterMap _).subset hm)
  · cases ho

end Race

end Completion

/-! ### Sending -/

namespace Transport

variable {φ : Type}

theorem remains_send (payload : Bytes) (bundle : Bundle φ) (answers : List Transmission) :
    Remains (send payload bundle answers).acts := by
  induction answers with
  | nil => exact Act.remains_nil
  | cons answer later ih =>
    cases answer with
    | interrupted => exact Act.remains_cons.mpr ⟨rfl, ih⟩
    | refused e => simp [send, Act.isExecution]
    | accepted n =>
      simp only [send]
      split <;> simp [Act.isExecution]

theorem result?_send {answers : List Transmission} (h : ∃ t ∈ answers, t ≠ .interrupted)
    (payload : Bytes) (bundle : Bundle φ) : (send payload bundle answers).result?.isSome := by
  induction answers with
  | nil =>
    obtain ⟨t, ht, -⟩ := h
    cases ht
  | cons answer later ih =>
    cases answer with
    | interrupted =>
      obtain ⟨t, ht, hne⟩ := h
      obtain rfl | ht := List.mem_cons.mp ht
      · exact absurd rfl hne
      · exact ih ⟨t, ht, hne⟩
    | refused e => rfl
    | accepted n =>
      simp only [send]
      split <;> rfl

end Transport

/-! ### Searching -/

namespace Endpoint

variable {σ κ : Type} (E : Endpoint σ κ)

theorem remains_pauseBefore (intervalMs left : Nat) : Remains (pauseBefore intervalMs left) := by
  cases left <;> simp [pauseBefore, Act.isExecution]

theorem remains_rounds (intervalMs left k : Nat) (es : List IoError) :
    Remains (rounds intervalMs left k es) := by
  induction es generalizing k with
  | nil => exact Act.remains_nil
  | cons e es ih => simp [rounds, remains_pauseBefore, ih, Act.isExecution]

theorem remains_reconnect (policy : ConnectRetry) (left k : Nat) (s : σ) :
    Remains (E.reconnect policy left k s).acts := by
  obtain ⟨es, u, -, h⟩ | ⟨es, conn, v, -, h⟩ := E.reconnect_cases policy left k s <;> rw [h]
  · simp [remains_rounds, Act.isExecution]
  · simp [remains_rounds, Act.isExecution]

theorem remains_locate (policy : ConnectRetry) (s : σ)
    (hspawn : ∀ t, Remains ((E.spawn t).2.1.map .report)) : Remains (E.locate policy s).acts := by
  obtain ⟨conn, t, h⟩ | ⟨e, t, f, es, u, hw, h⟩ | ⟨e, t, es, u, hw, h⟩ :=
    E.locate_cases policy s <;> rw [h]
  · simp [Act.isExecution]
  · have hs := hspawn t
    rw [hw] at hs
    simp [hs, Act.isExecution]
  · have hs := hspawn t
    rw [hw] at hs
    simp [opening, hs, remains_reconnect, Act.isExecution]

end Endpoint

/-! ### Handoffs -/

namespace Invocation

theorem eq_of_mem_lossOf {part : TextPart} {b : Bytes} {x : Event} (h : x ∈ lossOf part b) :
    x = .lossyConversion part := by
  unfold lossOf at h
  split at h
  · cases h
  · exact List.mem_singleton.mp h

theorem exists_of_mem_captureEvents {p : ProcessView} {control : String} {x : Event}
    (h : x ∈ captureEvents p control) : ∃ part, x = .lossyConversion part := by
  unfold captureEvents at h
  split at h
  · cases h
  · rw [lossEvents, List.mem_append, List.mem_flatMap, List.mem_flatMap] at h
    obtain ⟨v, -, hv⟩ | ⟨b, -, hb⟩ := h
    · obtain hn | hn := List.mem_append.mp hv
      · exact ⟨_, eq_of_mem_lossOf hn⟩
      · exact ⟨_, eq_of_mem_lossOf hn⟩
    · exact ⟨_, eq_of_mem_lossOf hb⟩

end Invocation

/-- The kernel comes to an answer, and the client has the turns it needs to get to its end. -/
structure World.Responsive {σ κ φ : Type} (W : World σ κ φ) : Prop where
  answers : ∀ conn message s, ∃ t ∈ W.answers conn message s, t ≠ .interrupted
  turns : ∀ conn message s, ∃ before after,
    W.turns conn message s = before ++ Completion.Race.closing ++ after

namespace Handoff

open Completion (Hand Kept Race)
open Counter (Guard Store)

variable {σ κ φ : Type} {W : World σ κ φ} {r : Report σ κ φ}

def Reported (W : World σ κ φ) (r : Report σ κ φ) (code : Int32) : Prop :=
  ∃ conn, r.connection? = some conn ∧ ∃ hand ∈ W.meanwhile conn r.message r.state ++
    Completion.Turn.hands (W.turns conn r.message r.state), hand.Reports code

/-- What is so of a handoff, however it goes. -/
structure Conduct (W : World σ κ φ) (r : Report σ κ φ) : Prop where
  remains : Remains r.acts
  reported : ∀ code, r.result? = some (.ok code) → Reported W r code
  ends : W.Responsive → r.result?.isSome

theorem Conduct.after (h : Conduct W r) {acts : List Act} (ha : Remains acts) :
    Conduct W (r.after acts) := ⟨ha.append h.remains, h.reported, h.ends⟩

theorem Conduct.closed (h : Conduct W r) : Conduct W r.closed := by
  obtain ⟨hremains, hreported, hends⟩ := h
  unfold Report.closed
  split
  · exact ⟨hremains.append (by simp [Act.isExecution]), hreported, hends⟩
  · exact ⟨hremains.append (by simp [Act.isExecution]), hreported, hends⟩
  · exact ⟨hremains, hreported, hends⟩

theorem conduct_of_error {e : HandoffError} (hr : r.result? = some (.error e))
    (ha : Remains r.acts) : Conduct W r :=
  ⟨ha, fun code h => by simp [hr] at h, fun _ => by simp [hr]⟩

theorem remains_destroy (g : Guard) (s : Store) : Remains (g.destroy s).acts := by
  unfold Guard.destroy
  split <;> simp [Act.isExecution]

theorem conduct_giveUp (e : HandoffError) {acts : List Act} (ha : Remains acts) (conn : κ)
    (message : Message φ) (early : List Hand) (g : Guard) (state : σ) (store : Store) :
    Conduct W (giveUp e acts conn message early g state store) :=
  conduct_of_error rfl (ha.append (remains_destroy g _))

theorem conduct_await (config : Config) (conn : κ) (message : Message φ) {g : Guard} (state : σ)
    {store : Store} (hg : g.removed = false) (k : Kept g.counter [] store) :
    Conduct W (await W config conn message (W.meanwhile conn message state) g state store) := by
  cases hm : W.monitorRefusal state with
  | some e =>
    simp only [await, hm]
    exact conduct_giveUp _ (by simp [Act.isExecution]) _ _ _ _ _ _
  | none =>
    have hs := Race.run_sound
      (Race.sound_startAfter hg k (W.meanwhile conn message state) config.waitMs)
      (W.turns conn message state)
    simp only [await, hm]
    refine ⟨?_, fun code h => ⟨conn, rfl, Race.reported_of_returned hg k _ _ _ h⟩, fun hw => ?_⟩
    · exact Act.remains_cons.mpr ⟨rfl, hs.told.remains⟩
    · obtain ⟨before, after, ht⟩ := hw.turns conn message state
      rw [ht]
      exact Race.result?_of_closing hg k _ _ before after

theorem conduct_deliver (config : Config) (i : Invocation) (bundle : Bundle φ) (conn : κ)
    {g : Guard} (state : σ) {store : Store} (hg : g.removed = false)
    (k : Kept g.counter [] store) : Conduct W (deliver W config i bundle conn g state store) := by
  have hsend := Transport.remains_send (i.payload (Int32.ofInt g.counter)).bytes bundle
    (W.answers conn ⟨(i.payload (Int32.ofInt g.counter)).bytes, bundle.files⟩ state)
  have hends (hw : W.Responsive) := Transport.result?_send
    (hw.answers conn ⟨(i.payload (Int32.ofInt g.counter)).bytes, bundle.files⟩ state)
    (i.payload (Int32.ofInt g.counter)).bytes bundle
  simp only [deliver]
  -- All that matters of the sending is what it did and whether it came to an end.
  generalize Transport.send _ _ _ = s at hsend hends ⊢
  obtain ⟨result?, acts, message⟩ := s
  match result? with
  | none => exact ⟨hsend, nofun, hends⟩
  | some (.error e) => exact conduct_giveUp e hsend conn message _ g state store
  | some (.ok ()) =>
    exact (conduct_await config conn message state hg k).after
      (hsend.append (by simp [Act.isExecution]))

theorem conduct_allocate (config : Config) (i : Invocation) (bundle : Bundle φ) (conn : κ)
    (state : σ) (store : Store) : Conduct W (allocate W config i bundle conn state store) := by
  simp only [allocate]
  cases hc : W.counterRefusal state with
  | some e => exact conduct_of_error rfl (by simp [Report.failed, Act.isExecution])
  | none =>
    cases hr : W.restRefusal state with
    | some e =>
      have hd := remains_destroy ⟨store.create.1, false⟩ store.create.2
      exact conduct_of_error rfl (Act.remains_cons.mpr ⟨rfl, hd⟩)
    | none =>
      exact (conduct_deliver config i bundle conn state rfl (Completion.kept_create store)).after
        (by simp [Guard.create, Act.isExecution])

theorem conduct_search (config : Config) (i : Invocation) (bundle : Bundle φ) (state : σ)
    (store : Store) : Conduct W (search W config i bundle state store) := by
  have hfound := Endpoint.remains_locate
    (endpoint W config.helperProgram config.socketPath i.spawnEnv) config.connect state fun t => by
      simp only [endpoint]
      split <;> simp [Act.isExecution]
  simp only [search]
  generalize Endpoint.locate _ _ _ = s at hfound ⊢
  obtain ⟨result, acts, state'⟩ := s
  cases result with
  | error e => exact conduct_of_error rfl (Act.remains_cons.mpr ⟨rfl, hfound⟩)
  | ok conn =>
    refine (conduct_allocate config i bundle conn state' store).after ?_
    exact (Act.remains_cons.mpr ⟨rfl, hfound⟩).append (by simp [Act.isExecution])

theorem conduct_run (config : Config) (i : Invocation) (state : σ) (store : Store) :
    Conduct W (run W config i state store) := by
  refine Conduct.closed ?_
  simp only [steps]
  cases hd : W.openDirectory i.cwd state with
  | error e => exact conduct_of_error rfl (by simp [Report.failed, Act.isExecution])
  | ok cwd => exact (conduct_search config i _ state store).after (by simp [Act.isExecution])

theorem conduct_runFor (config : Config) (p : ProcessView) (state : σ) (store : Store) :
    Conduct W (runFor W config p state store) := by
  have hidle : Remains (.report (.entered .idle) ::
      (Invocation.captureEvents p config.controlVar).map .report) := by
    refine Act.remains_cons.mpr ⟨rfl, fun a ha => ?_⟩
    obtain ⟨x, hx, rfl⟩ := List.mem_map.mp ha
    obtain ⟨part, rfl⟩ := Invocation.exists_of_mem_captureEvents hx
    rfl
  simp only [runFor]
  cases hc : Invocation.capture p config.controlVar with
  | error e => exact conduct_of_error rfl hidle
  | ok i => exact (conduct_run config i state store).after hidle

end Handoff

end HelperHandoff
