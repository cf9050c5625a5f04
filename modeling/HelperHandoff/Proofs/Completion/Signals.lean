import HelperHandoff.Proofs.Completion.Relay

set_option autoImplicit false

namespace HelperHandoff

open Counter (Store)

namespace ExitCode

variable {code : Int32} {status : UInt8}

theorem Tells.eq_zero_iff (h : Tells code status) (hn : code.toInt < 0) :
    status = 0 ↔ (128 - code.toInt) % 256 = 0 := by
  have hs := h.neg hn
  have hz : (0 : UInt8).toNat = 0 := rfl
  rw [← UInt8.toNat_inj, hz]
  omega

theorem Tells.eq_zero_iff_of_accepted (h : Tells code status) (hn : code.toInt < 0)
    (ha : Accepted code) : status = 0 ↔ code.toInt ∈ [-128, -384, -640, -896] := by
  have hl := ha.1
  rw [h.eq_zero_iff hn]
  simp only [List.mem_cons, List.not_mem_nil, or_false]
  omega

theorem Tells.eq_add_of_le (h : Tells code status) (hn : code.toInt < 0)
    (hl : -127 ≤ code.toInt) : (status.toNat : Int) = 128 + -code.toInt := by
  have hs := h.neg hn
  omega

end ExitCode

namespace Completion

/-- A negative code that a counter takes is returned by whoever reads it there. The status that
tells of it is its distance from 128, as far as a byte can say; it is not zero but for four codes,
none of which is a signal's, and the codes down to -127 keep a status of their own. -/
theorem signal_relayed (s : Store) (id : Int) (code : Int32) (hn : code.toInt < 0)
    (hp : (s.publish id code).1 = none) :
    ∃ v status, (s.publish id code).2.value? id = some v ∧ Relayed v code ∧
      Client.endingOf (.ok code) = .exits status "" ∧
      (status.toNat : Int) = (128 + -code.toInt) % 256 ∧
      (status = 0 ↔ code.toInt ∈ [-128, -384, -640, -896]) ∧
      (-127 ≤ code.toInt → (status.toNat : Int) = 128 + -code.toInt) := by
  obtain ⟨v, hv, he, hr⟩ := Store.value?_of_publish hp
  have hrelayed : Relayed v code := relayed_of_decode? hr (ExitCode.decode?_of_encode? he)
  have ha : ExitCode.Accepted code := ExitCode.accepted_of_encode? he hr
  have htells := hrelayed.exact.tells
  refine ⟨v, ExitCode.statusByte code, hv, hrelayed, hrelayed.exits, ?_,
    htells.eq_zero_iff_of_accepted hn ha, htells.eq_add_of_le hn⟩
  rw [htells.neg hn, Int.sub_eq_add_neg]

/-- The last code with a status of its own, and one that has come round more than once. -/
theorem signal_relayed_last :
    let s : Store := ⟨[some 0], []⟩
    ((-127 : Int32).toInt < 0 ∧ (s.publish 0 (-127)).1 = none ∧
        ∃ status, Client.endingOf (.ok (-127)) = .exits status "" ∧ (status.toNat : Int) = 255) ∧
      (-999 : Int32).toInt < 0 ∧ (s.publish 0 (-999)).1 = none ∧
        ∃ status, Client.endingOf (.ok (-999)) = .exits status "" ∧ status ≠ 0 := by
  obtain ⟨_, status, -, -, hends, -, -, hown⟩ :=
    signal_relayed ⟨[some 0], []⟩ 0 (-127) (by decide) rfl
  obtain ⟨_, status', -, -, hends', -, hzero, -⟩ :=
    signal_relayed ⟨[some 0], []⟩ 0 (-999) (by decide) rfl
  exact ⟨⟨by decide, rfl, status, hends, hown (by decide)⟩, by decide, rfl, status', hends',
    fun hz => absurd (hzero.mp hz) (by decide)⟩

/-- A helper that reports -128 is told that the code is stored, and its client ends like one that
has succeeded. -/
theorem success_of_signal :
    let r := (Race.fresh [.publish (-128)] 0 .empty).run Race.closing
    (-128 : Int32).toInt < 0 ∧ r.deeds = [⟨.publish (-128), none⟩] ∧
      r.result? = some (.ok (-128)) ∧ Client.endingOf (.ok (-128)) = .exits 0 "" :=
  ⟨by decide, rfl, rfl, rfl⟩

end Completion

end HelperHandoff
