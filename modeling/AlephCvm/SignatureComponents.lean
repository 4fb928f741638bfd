import AlephCvm.BigEndian
import AlephCvm.SevVerify

/-!
# The components of a report's signature

A report carries the two numbers of its signature as fields of 72 bytes with
the least significant byte first.  The verifier reverses each field and strips
the zeros in front.  The result is never empty, it is the shortest string for
the number of the field, and a field of zeros becomes a single zero byte.
-/

namespace AlephCvm.Tee

open BigEndian

/-- By cases on the first byte that is not zero; without one the last byte
stays. -/
theorem stripLeadingZeros_shortest
    {bytes : Bytes} (hbytes : bytes ≠ []) :
    Shortest (stripLeadingZeros bytes) (value bytes) := by
  unfold stripLeadingZeros
  cases hfirst : bytes.findIdx? (· != 0) with
  | some position =>
      obtain ⟨hposition, hnonzero, hbefore⟩ :=
        List.findIdx?_eq_some_iff_getElem.mp hfirst
      have hzeros : ∀ byte ∈ bytes.take position, byte = 0 := by
        intro byte hbyte
        obtain ⟨index, hindex, rfl⟩ := List.mem_take_iff_getElem.mp hbyte
        simpa using hbefore index (by omega)
      have hfirstNonzero : bytes[position] ≠ 0 := by
        simpa using hnonzero
      have hsplit : bytes =
          bytes.take position ++
            bytes[position] :: bytes.drop (position + 1) := by
        rw [← List.drop_eq_getElem_cons hposition,
          List.take_append_drop]
      have hshortest :
          Shortest (bytes[position] :: bytes.drop (position + 1))
            (value (bytes.take position ++
              bytes[position] :: bytes.drop (position + 1))) :=
        shortest_of_zeros hzeros hfirstNonzero
      rw [← hsplit, ← List.drop_eq_getElem_cons hposition] at hshortest
      exact hshortest
  | none =>
      have hzeros : ∀ byte ∈ bytes, byte = 0 := by
        simpa using List.findIdx?_eq_none_iff.mp hfirst
      have hlast : bytes.drop (bytes.length - 1) = [0] := by
        rw [List.drop_length_sub_one hbytes,
          hzeros _ (List.getLast_mem hbytes)]
      dsimp only
      rw [hlast]
      exact shortest_zero hzeros

theorem signatureComponent_shortest
    {raw : Bytes} {offset : ℕ} (hoffset : offset < raw.length) :
    Shortest (signatureComponent raw offset)
      (littleEndian ((raw.drop offset).take 72)) := by
  rw [← value_reverse, signatureComponent]
  apply stripLeadingZeros_shortest
  intro hempty
  have hlength := congrArg List.length hempty
  simp only [List.length_reverse, List.length_take, List.length_drop,
    List.length_nil] at hlength
  omega

/-- For every report that is long enough, the two strings that the verifier
hands over are the shortest ones for the numbers of the two fields. -/
theorem signature_components_exact
    (raw : Bytes) (hlength : 816 ≤ raw.length) :
    Shortest (signatureComponent raw signedReportSize)
        (littleEndian ((raw.drop 672).take (744 - 672))) ∧
      Shortest (signatureComponent raw (signedReportSize + 72))
        (littleEndian ((raw.drop 744).take (816 - 744))) := by
  constructor
  · exact signatureComponent_shortest (by unfold signedReportSize; omega)
  · exact signatureComponent_shortest (by unfold signedReportSize; omega)

/-- A report whose first component is 256 and whose second one is zero. -/
def sampleSignedReport : Bytes :=
  List.replicate 673 0 ++ 1 :: List.replicate 142 0

theorem sampleSignedReport_components :
    Shortest (signatureComponent sampleSignedReport signedReportSize)
        (littleEndian ((sampleSignedReport.drop 672).take (744 - 672))) ∧
      Shortest (signatureComponent sampleSignedReport
          (signedReportSize + 72))
        (littleEndian ((sampleSignedReport.drop 744).take (816 - 744))) :=
  signature_components_exact sampleSignedReport (by
    rw [sampleSignedReport, List.length_append, List.length_cons,
      List.length_replicate, List.length_replicate])

example :
    stripLeadingZeros [0, 0, 1, 2, 3] = [1, 2, 3] ∧
      stripLeadingZeros [0, 0, 0] = [0] := by
  decide

end AlephCvm.Tee
