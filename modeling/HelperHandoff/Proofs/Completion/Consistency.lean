import HelperHandoff.Proofs.Completion.Steps

set_option autoImplicit false

namespace HelperHandoff.Completion

open Counter (Guard InRange Store)

/-! ### What others have left of a counter -/

def left (deeds : List Deed) : Option Int32 :=
  deeds.foldl (fun cell d => if d.failure = none then d.hand.cell? else cell) (some 0)

def Signaled (deeds : List Deed) : Prop :=
  ∃ d ∈ deeds, d.failure = none ∧ ∃ v, d.hand.cell? = some v ∧ v ≠ 0

def Removed (deeds : List Deed) : Prop := ⟨.remove, none⟩ ∈ deeds

instance (deeds : List Deed) : Decidable (Removed deeds) := inferInstanceAs (Decidable (_ ∈ _))

theorem left_concat (deeds : List Deed) (d : Deed) :
    left (deeds ++ [d]) = if d.failure = none then d.hand.cell? else left deeds := by
  simp [left]

theorem Signaled.mono {deeds later : List Deed} (h : Signaled deeds) (hs : deeds <+: later) :
    Signaled later := by
  obtain ⟨d, hd, hf⟩ := h
  exact ⟨d, hs.subset hd, hf⟩

theorem exists_deed_of_left {deeds : List Deed} {v : Int32} (h : left deeds = some v)
    (hv : v ≠ 0) : ∃ d ∈ deeds, d.failure = none ∧ d.hand.cell? = some v := by
  induction deeds using List.reverseRecOn with
  | nil =>
    obtain rfl := Option.some.inj h
    exact absurd rfl hv
  | append_singleton deeds d ih =>
    rw [left_concat] at h
    by_cases hf : d.failure = none
    · rw [if_pos hf] at h
      exact ⟨d, by simp, hf, h⟩
    · rw [if_neg hf] at h
      obtain ⟨d', hd, hd'⟩ := ih h
      exact ⟨d', by simp [hd], hd'⟩

theorem signaled_of_left {deeds : List Deed} {v : Int32} (h : left deeds = some v) (hv : v ≠ 0) :
    Signaled deeds := by
  obtain ⟨d, hd, hf, hc⟩ := exists_deed_of_left h hv
  exact ⟨d, hd, hf, v, hc, hv⟩

/-- What is so of a counter that its owner has not removed. -/
structure Kept (id : Int) (deeds : List Deed) (s : Store) : Prop where
  value : s.value? id = left deeds
  gone_iff : s.value? id = none ↔ Removed deeds
  range : ∀ v, s.value? id = some v → InRange v

theorem removed_concat_of_failure {deeds : List Deed} {h : Hand} {e : Errno} :
    Removed (deeds ++ [⟨h, some e⟩]) ↔ Removed deeds := by
  simp [Removed]

theorem Kept.congr {id : Int} {deeds : List Deed} {s t : Store} (k : Kept id deeds s)
    (h : t.value? id = s.value? id) : Kept id deeds t :=
  ⟨h.trans k.value, by rw [h]; exact k.gone_iff, by rw [h]; exact k.range⟩

theorem Kept.act {id : Int} {deeds : List Deed} {s : Store} (k : Kept id deeds s) (h : Hand) :
    Kept id (deeds ++ [⟨h, (h.act id s).1⟩]) (h.act id s).2 := by
  obtain ⟨e, hf⟩ | ⟨hl, hs, hr, hc⟩ := h.act_cases id s
  · rw [hf]
    exact ⟨by rw [left_concat]; simpa using k.value,
      by rw [removed_concat_of_failure]; exact k.gone_iff, k.range⟩
  · rw [hs]
    have hv := Store.value?_settle_self hl h.cell?
    -- Nobody had removed the counter before, for it exists.
    have hn : ¬ Removed deeds := fun hd => Store.not_live_iff.mpr (k.gone_iff.mpr hd) hl
    refine ⟨by rw [hv, left_concat]; simp, ?_, by rw [hv]; exact hr⟩
    rw [hv, hc]
    simp [Removed, eq_comm] at hn ⊢
    simp [hn]

theorem Kept.actAll {id : Int} {deeds : List Deed} {s : Store} (k : Kept id deeds s)
    (hands : List Hand) :
    Kept id (deeds ++ (Hand.actAll id hands s).1) (Hand.actAll id hands s).2 := by
  induction hands generalizing deeds s with
  | nil => simpa [Hand.actAll] using k
  | cons h rest ih => simpa [Hand.actAll] using ih (k.act h)

theorem kept_create (s : Store) : Kept s.create.1 [] s.create.2 where
  value := s.value?_create
  gone_iff := by simp [s.value?_create, Removed]
  range := by
    intro v hv
    rw [s.value?_create] at hv
    obtain rfl := Option.some.inj hv
    decide

/-! ### What a client has done -/

/-- What comes of the reading: a code that was there when the deadline passed is reported. -/
def Judged (id : Int) (o : Outcome) (acts : List Act) : Prop :=
  acts = [] ∨ ∃ code, o = .ok code ∧ acts = [.report (.racedDeadline id code.toInt)]

def parting (id : Int) (foreign : Bool) : List Act :=
  if foreign then
    [.report (.counterRemoved id), .removeCounter id (some (.system .invalidArgument)),
      .report (.counterRemoveFailed id (.system .invalidArgument))]
  else [.report (.counterRemoved id), .removeCounter id none]

/-- What a client has done by the time it has got to a place. -/
def Told (id : Int) (deeds : List Deed) : Stage → List Act → Prop
  | .receiving, acts | .reading _, acts => acts = []
  | .removing o, acts => Judged id o acts
  | .joining o, acts =>
    ¬ Removed deeds ∧ ∃ judged, Judged id o judged ∧ acts = judged ++ parting id false
  | .returned o, acts =>
    ∃ judged, Judged id o judged ∧ acts = judged ++ parting id (decide (Removed deeds))

theorem judged_judge (id : Int) (timeoutMs : Nat) (woken : Bool) (value : Except Errno Int32) :
    Judged id (judge timeoutMs woken value)
      (judgeActs id woken (judge timeoutMs woken value)) := by
  cases hj : judge timeoutMs woken value with
  | error e => exact .inl rfl
  | ok code =>
    cases woken with
    | true => exact .inl rfl
    | false => exact .inr ⟨code, rfl, rfl⟩

/-! ### The whole -/

def Stage.isOver : Stage → Bool
  | .receiving | .reading _ | .removing _ => false
  | .joining _ | .returned _ => true

theorem Told.refused {id : Int} {deeds : List Deed} {stage : Stage} {acts : List Act}
    (t : Told id deeds stage acts) (h : Hand) (e : Errno) :
    Told id (deeds ++ [⟨h, some e⟩]) stage acts := by
  cases stage <;> simpa [Told, removed_concat_of_failure] using t

theorem Told.of_not_over {id : Int} {deeds : List Deed} {stage : Stage} {acts : List Act}
    (t : Told id deeds stage acts) (h : stage.isOver = false) (later : List Deed) :
    Told id later stage acts := by
  cases stage with
  | receiving | reading | removing => exact t
  | joining | returned => simp [Stage.isOver] at h

namespace Race

structure Sound (r : Race) : Prop where
  watched : r.store.Watched r.id r.client.monitor (Signaled r.deeds)
  failure : ∀ e, r.client.inbox = some (some e) → r.store.value? r.id = none
  message : r.client.inbox = some none → Signaled r.deeds
  woken : r.client.stage = .reading true → Signaled r.deeds
  guard : r.client.guard.removed = r.client.stage.isOver
  kept : r.client.stage.isOver = false → Kept r.id r.deeds r.store
  gone : r.client.stage.isOver = true → r.store.value? r.id = none
  told : Told r.id r.deeds r.client.stage r.client.acts

namespace Sound

variable {r r' : Race}

theorem live_of_not_over_of_value {v : Int32} (h : Sound r) (hv : r.store.value? r.id = some v) :
    r.client.stage.isOver = false := by
  cases ho : r.client.stage.isOver with
  | false => rfl
  | true => simp [h.gone ho] at hv

theorem signaled (h : Sound r) {v : Int32} (hv : r.store.value? r.id = some v) (hn : v ≠ 0) :
    Signaled r.deeds := by
  have k := h.kept (h.live_of_not_over_of_value hv)
  exact signaled_of_left (k.value.symm.trans hv) hn

theorem destroy_of_live (h : Sound r) (ho : r.client.stage.isOver = false)
    (hl : r.store.live r.id) :
    r.client.guard.destroy r.store =
      ⟨none, [.report (.counterRemoved r.id), .removeCounter r.id none], ⟨r.id, true⟩,
        r.store.settle r.id none⟩ := by
  have hr : r.store.remove r.client.guard.counter = (none, r.store.settle r.id none) :=
    Store.remove_of_live hl
  rw [Guard.destroy_of_held (h.guard.trans ho), hr]
  rfl

theorem destroy_of_gone (h : Sound r) (ho : r.client.stage.isOver = false)
    (hg : r.store.value? r.id = none) :
    r.client.guard.destroy r.store =
      ⟨some .invalidArgument,
        [.report (.counterRemoved r.id), .removeCounter r.id (some (.system .invalidArgument))],
        ⟨r.id, true⟩, r.store⟩ := by
  have hr : r.store.remove r.client.guard.counter = (some .invalidArgument, r.store) :=
    Store.remove_of_gone hg
  rw [Guard.destroy_of_held (h.guard.trans ho), hr]
  rfl

theorem act (h : Sound r) (hand : Hand) :
    Sound { r with
      store := (hand.act r.id r.store).2
      deeds := r.deeds ++ [⟨hand, (hand.act r.id r.store).1⟩] } := by
  obtain ⟨e, hf⟩ | ⟨hl, hs, -, -⟩ := hand.act_cases r.id r.store
  · have hd := List.prefix_append r.deeds [⟨hand, some e⟩]
    have k ho := (h.kept ho).act hand
    rw [hf] at k ⊢
    exact
      { watched := h.watched.mono fun hp => hp.mono hd
        failure := h.failure
        message := fun hi => (h.message hi).mono hd
        woken := fun hw => (h.woken hw).mono hd
        guard := h.guard
        kept := k
        gone := h.gone
        told := Told.refused h.told hand e }
  · obtain ⟨v, hv⟩ := Store.live_iff.mp hl
    have ho := h.live_of_not_over_of_value hv
    have hd := List.prefix_append r.deeds [⟨hand, none⟩]
    have k := (h.kept ho).act hand
    rw [hs] at k ⊢
    refine
      { watched := ?_
        failure := fun e he => absurd (h.failure e he) (by simp [hv])
        message := fun hi => (h.message hi).mono hd
        woken := fun hw => (h.woken hw).mono hd
        guard := h.guard
        kept := fun _ => k
        gone := fun hg => by simp [ho] at hg
        told := Told.of_not_over h.told ho _ }
    apply (h.watched.mono fun hp => hp.mono hd).settle hl
    intro v hc hn
    exact ⟨⟨hand, none⟩, by simp, rfl, v, hc, hn⟩

theorem advance (h : Sound r) (ho : r.client.stage.isOver = false) {inbox : Option (Option Errno)}
    {stage : Stage} {acts : List Act} (hi : inbox = none ∨ inbox = r.client.inbox)
    (hs : stage.isOver = false) (hw : stage = .reading true → Signaled r.deeds)
    (ht : Told r.id r.deeds stage acts) :
    Sound { r with client := { r.client with inbox := inbox, stage := stage, acts := acts } } where
  watched := h.watched
  failure e he := by
    rcases hi with rfl | rfl
    · cases he
    · exact h.failure e he
  message he := by
    rcases hi with rfl | rfl
    · cases he
    · exact h.message he
  woken := hw
  guard := (h.guard.trans ho).trans hs.symm
  kept _ := h.kept ho
  gone hg := by cases hs.symm.trans hg
  told := ht

/-- The removal has succeeded, so the counter was there, and nobody had removed it before. -/
theorem removes {o : Outcome} (h : Sound r) (hs : r.client.stage = .removing o)
    (hf : (r.client.guard.destroy r.store).failure = none) :
    Sound { r with
      store := (r.client.guard.destroy r.store).store
      client := { r.client with
        guard := (r.client.guard.destroy r.store).guard
        stage := .joining o
        acts := r.client.acts ++ (r.client.guard.destroy r.store).acts } } := by
  have ho : r.client.stage.isOver = false := by simp [hs, Stage.isOver]
  have hj : Judged r.id o r.client.acts := by simpa [hs, Told] using h.told
  have hl : r.store.live r.id := by
    by_contra hn
    simp [h.destroy_of_gone ho (Store.not_live_iff.mp hn)] at hf
  have hn : ¬ Removed r.deeds := fun hd =>
    Store.not_live_iff.mpr ((h.kept ho).gone_iff.mpr hd) hl
  have hg := Store.value?_settle_self hl none
  have hw : (r.store.settle r.id none).Watched r.id r.client.monitor (Signaled r.deeds) :=
    h.watched.settle hl nofun
  simp only [h.destroy_of_live ho hl]
  exact
    { watched := hw
      failure := fun _ _ => hg
      message := h.message
      woken := nofun
      guard := rfl
      kept := nofun
      gone := fun _ => hg
      told := ⟨hn, _, hj, rfl⟩ }

/-- The removal has failed, so somebody else's has come before it. -/
theorem misses {o : Outcome} {e : Errno} (h : Sound r) (hs : r.client.stage = .removing o)
    (hf : (r.client.guard.destroy r.store).failure = some e) :
    Sound { r with
      store := (r.client.guard.destroy r.store).store
      client := { r.client with
        guard := (r.client.guard.destroy r.store).guard
        stage := .returned o
        acts := r.client.acts ++ ((r.client.guard.destroy r.store).acts ++
          [.report (.counterRemoveFailed r.id (.system e))]) } } := by
  have ho : r.client.stage.isOver = false := by simp [hs, Stage.isOver]
  have hj : Judged r.id o r.client.acts := by simpa [hs, Told] using h.told
  have hg : r.store.value? r.id = none := by
    apply Store.not_live_iff.mp
    intro hl
    simp [h.destroy_of_live ho hl] at hf
  have hr : Removed r.deeds := (h.kept ho).gone_iff.mp hg
  simp only [h.destroy_of_gone ho hg] at hf ⊢
  obtain rfl := Option.some.inj hf
  exact
    { h with
      woken := nofun
      guard := rfl
      kept := nofun
      gone := fun _ => hg
      told := ⟨_, hj, by rw [decide_eq_true hr]; rfl⟩ }

theorem joins {o : Outcome} (h : Sound r) (hs : r.client.stage = .joining o) :
    Sound { r with client := { r.client with stage := .returned o } } := by
  have ho : r.client.stage.isOver = true := by simp [hs, Stage.isOver]
  obtain ⟨hn, judged, hj, ha⟩ : Told r.id r.deeds (.joining _) r.client.acts := hs ▸ h.told
  exact
    { h with
      woken := nofun
      guard := h.guard.trans ho
      kept := nofun
      gone := fun _ => h.gone ho
      told := ⟨judged, hj, by rw [decide_eq_false hn]; exact ha⟩ }

theorem step {turn : Turn} (h : Sound r) (s : Steps turn r r') : Sound r' := by
  cases s with
  | acts hand => exact h.act hand
  | calls hc =>
    have hv := Store.value?_call r.store r.client.monitor r.id
    exact
      { h with
        watched := h.watched.call fun v => h.signaled
        failure := fun e he => hv.trans (h.failure e he)
        kept := fun ho => (h.kept ho).congr hv
        gone := fun ho => hv.trans (h.gone ho) }
  | interrupted hc =>
    have hv := Store.value?_interrupt r.store r.client.monitor r.id
    exact
      { h with
        watched := h.watched.interrupt
        failure := h.failure
        kept := fun ho => (h.kept ho).congr hv
        gone := h.gone }
  | sends hf hs =>
    -- The message is what the wait came to, of which `watched` speaks.
    refine { h with failure := fun e he => ?_, message := fun he => ?_ }
    · obtain rfl := Option.some.inj he
      exact h.watched.gone e hf
    · obtain rfl := Option.some.inj he
      exact h.watched.admitted hf
  | wakes hs hi =>
    have ht : r.client.acts = [] := by simpa [hs, Told] using h.told
    exact h.advance (by simp [hs, Stage.isOver]) (.inl rfl) rfl (fun _ => h.message hi) ht
  | hears hs hi =>
    have ht : r.client.acts = [] := by simpa [hs, Told] using h.told
    exact h.advance (by simp [hs, Stage.isOver]) (.inl rfl) rfl nofun (.inl ht)
  | expires hs hi =>
    have ht : r.client.acts = [] := by simpa [hs, Told] using h.told
    exact h.advance (by simp [hs, Stage.isOver]) (.inr rfl) rfl nofun ht
  | @reads _ woken hs =>
    have ht : r.client.acts = [] := by simpa [hs, Told] using h.told
    have hj := judged_judge r.id r.client.timeoutMs woken (r.store.read r.id)
    rw [ht, List.nil_append]
    exact h.advance (by simp [hs, Stage.isOver]) (.inr rfl) rfl nofun hj
  | removes hs hf => exact h.removes hs hf
  | misses hs hf => exact h.misses hs hf
  | joins hs _ => exact h.joins hs

end Sound

theorem sound_startAfter {g : Guard} {s : Store} (hg : g.removed = false)
    (k : Kept g.counter [] s) (early : List Hand) (timeoutMs : Nat) :
    Sound (startAfter early g timeoutMs s) where
  watched := Store.Watched.enter _ _
  failure := nofun
  message := nofun
  woken := nofun
  guard := hg
  kept := fun _ => (k.actAll early).congr rfl
  gone := nofun
  told := rfl

theorem run_sound {r : Race} (h : Sound r) (turns : List Turn) : Sound (r.run turns) :=
  run_induction h turns fun _ _ _ _ s h => h.step s

def fresh (early : List Hand) (timeoutMs : Nat) (s : Store) : Race :=
  startAfter early (Guard.create s).1 timeoutMs (Guard.create s).2.2

theorem sound_fresh (early : List Hand) (timeoutMs : Nat) (s : Store) :
    Sound (fresh early timeoutMs s) := sound_startAfter rfl (kept_create s) early timeoutMs

end Race

end HelperHandoff.Completion
