import GhostSched.PntRing.Model

/-!
# Agent data of a ring slot

The agent keeps in 64 bits which slot of which ring a task was put into.

* `pntRingToAgentData_eq` gives the three parts of the word as a sum.
* `agentData_roundtrip`: a ring id of up to 26 bits comes back. A longer one loses its upper
  bits, since it is shifted in 32 bits: `ringId_truncated`.
-/

namespace PntRing

/-- `pnt_agent_data_to_ring_id` -/
def pntAgentDataToRingId (agentData : ℕ) : ℕ := (agentData &&& (2 ^ 64 - 1 - 1 <<< 63)) >>> 6

/-- `pnt_agent_data_to_ring_index` -/
def pntAgentDataToRingIndex (agentData : ℕ) : ℕ := agentData &&& (nrPntRingSlots - 1)

/-- `pnt_agent_data_to_ring_slot` -/
def pntAgentDataToRingSlot (rings : ℕ → Ring) (agentData : ℕ) : Slot :=
  (rings (pntAgentDataToRingId agentData)).slots
    (pntRingGetSlot (pntAgentDataToRingIndex agentData))

/-- The parts of the word do not overlap. -/
theorem pntRingToAgentData_eq (ringId ringIndex : ℕ) : pntRingToAgentData ringId ringIndex =
      2 ^ 63 + (2 ^ 6 * (ringId % 2 ^ 26) + ringIndex % 2 ^ 6) := by
  have hindex : ringIndex &&& (nrPntRingSlots - 1) = ringIndex % 2 ^ 6 :=
    Nat.and_two_pow_sub_one_eq_mod ringIndex 6
  have hid : (ringId <<< 6) % 2 ^ 32 = 2 ^ 6 * (ringId % 2 ^ 26) := by
    rw [Nat.shiftLeft_eq]
    omega
  have hlow : 2 ^ 6 * (ringId % 2 ^ 26) + ringIndex % 2 ^ 6 < 2 ^ 63 := by omega
  rw [pntRingToAgentData, hindex, hid, Nat.or_assoc,
    ← Nat.two_pow_add_eq_or_of_lt (Nat.mod_lt _ (by decide)) (ringId % 2 ^ 26)]
  exact (Nat.two_pow_add_eq_or_of_lt hlow 1).symm

theorem pntAgentDataToRingId_eq (ringId ringIndex : ℕ) :
    pntAgentDataToRingId (pntRingToAgentData ringId ringIndex) = ringId % 2 ^ 26 := by
  have hmask : 2 ^ 64 - 1 - 1 <<< 63 = 2 ^ 63 - 1 := by decide
  rw [pntAgentDataToRingId, hmask, Nat.and_two_pow_sub_one_eq_mod, Nat.shiftRight_eq_div_pow,
    pntRingToAgentData_eq]
  omega

theorem pntAgentDataToRingIndex_eq (ringId ringIndex : ℕ) :
    pntAgentDataToRingIndex (pntRingToAgentData ringId ringIndex) = ringIndex % nrPntRingSlots := by
  have hand := Nat.and_two_pow_sub_one_eq_mod (pntRingToAgentData ringId ringIndex) 6
  rw [pntAgentDataToRingIndex, show nrPntRingSlots = 2 ^ 6 from rfl, hand, pntRingToAgentData_eq]
  omega

/-- The index and the mark of a used entry are always there. The ring id is, so that the agent finds
the slot again, exactly if it has at most 26 bits. -/
theorem agentData_roundtrip (ringId ringIndex : ℕ) :
    pntAgentDataToRingIndex (pntRingToAgentData ringId ringIndex) = ringIndex % nrPntRingSlots ∧
    (pntRingToAgentData ringId ringIndex).testBit 63 = true ∧
    (ringId < 2 ^ 26 ↔ pntAgentDataToRingId (pntRingToAgentData ringId ringIndex) = ringId ∧
      ∀ rings : ℕ → Ring, pntAgentDataToRingSlot rings (pntRingToAgentData ringId ringIndex) =
        (rings ringId).slots (pntRingGetSlot ringIndex)) := by
  refine ⟨pntAgentDataToRingIndex_eq ringId ringIndex, ?_, fun hid => ?_, fun ⟨hring, _⟩ => ?_⟩
  · rw [pntRingToAgentData_eq, Nat.testBit_two_pow_add_eq, Nat.testBit_lt_two_pow (by omega)]
    rfl
  · have hring : pntAgentDataToRingId (pntRingToAgentData ringId ringIndex) = ringId := by
      rw [pntAgentDataToRingId_eq, Nat.mod_eq_of_lt hid]
    refine ⟨hring, fun rings => ?_⟩
    have hslot : pntRingGetSlot (ringIndex % nrPntRingSlots) = pntRingGetSlot ringIndex :=
      Fin.ext (Nat.mod_mod ringIndex nrPntRingSlots)
    rw [pntAgentDataToRingSlot, hring, pntAgentDataToRingIndex_eq, hslot]
  · -- the upper bits of the id are shifted out, so what comes back is below `2 ^ 26`
    rw [pntAgentDataToRingId_eq] at hring
    exact hring ▸ Nat.mod_lt ringId (by decide)

theorem agentData_roundtrip_largest :
    pntAgentDataToRingId (pntRingToAgentData (2 ^ 26 - 1) 70) = 2 ^ 26 - 1 :=
  ((agentData_roundtrip (2 ^ 26 - 1) 70).2.2.1 (by decide)).1

/-- The first ring id that does not fit comes back as ring 0. -/
theorem ringId_truncated : pntAgentDataToRingId (pntRingToAgentData (2 ^ 26) 0) = 0 ∧
    2 ^ 26 < 2 ^ 32 :=
  ⟨by decide, by decide⟩

end PntRing
