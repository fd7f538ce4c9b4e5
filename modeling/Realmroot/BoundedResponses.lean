import Realmroot.Usecases.Webhooks

/-!
# Bounded responses

What a delivery records of an answer is read chunk by chunk, up to a limit. It depends on the
bytes alone, except that an empty chunk after exactly as many bytes as the limit marks the text
as truncated.
-/

namespace Realmroot

variable {bytes : List UInt8} {chunks : List (List UInt8)}

/-- The body is as long as the limit and its last chunk is empty. -/
def EndsAtLimit (chunks : List (List UInt8)) : Prop :=
  chunks.flatten.length = webhookResponseLimit ∧ chunks.getLast? = some []

instance : Decidable (EndsAtLimit chunks) := inferInstanceAs (Decidable (_ ∧ _))

/-- What a loop that has read some bytes takes for a truncated body. -/
def IsTruncated (bytes : List UInt8) (chunks : List (List UInt8)) : Prop :=
  webhookResponseLimit < (bytes ++ chunks.flatten).length ∨
    ((bytes ++ chunks.flatten).length = webhookResponseLimit ∧ chunks.getLast? = some [])

/-- A body without bytes ends in an empty chunk, if there is a chunk. -/
theorem getLast?_of_flatten_eq_nil {value : List UInt8} (h : (value :: chunks).flatten = []) :
    (value :: chunks).getLast? = some [] := by
  rw [List.getLast?_eq_some_getLast (List.cons_ne_nil value chunks), Option.some.injEq]
  exact List.flatten_eq_nil_iff.mp h _ (List.getLast_mem _)

/-- The loop reads the bytes up to the limit. -/
theorem readChunks_spec (h : bytes.length ≤ webhookResponseLimit) :
    ∃ truncated, readChunks false bytes chunks =
        some ((bytes ++ chunks.flatten).take webhookResponseLimit, truncated) ∧
      (truncated = true ↔ IsTruncated bytes chunks) := by
  induction chunks generalizing bytes with
  | nil =>
    refine ⟨false, ?_, ?_⟩
    · simp [readChunks, List.take_of_length_le h]
    · simp [IsTruncated, h]
  | cons value values ih =>
    unfold readChunks
    dsimp only
    split_ifs with hfull hlong
    · -- the limit is reached: whatever chunk comes now, the loop ends
      have hlength : bytes.length = webhookResponseLimit := by omega
      refine ⟨true, ?_, ?_⟩
      · rw [List.take_append_of_le_length hlength.ge, List.take_of_length_le h]
      · simp only [IsTruncated, List.length_append, hlength, true_iff]
        rcases Nat.eq_zero_or_pos (value :: values).flatten.length with hzero | hpos
        · right
          exact ⟨by omega, getLast?_of_flatten_eq_nil (List.length_eq_zero_iff.mp hzero)⟩
        · left
          omega
    · refine ⟨true, ?_, ?_⟩
      · rw [List.take_append, List.take_of_length_le h, List.flatten_cons,
          List.take_append_of_le_length (by omega)]
      · simp only [IsTruncated, List.length_append, List.flatten_cons, true_iff]
        left
        omega
    · have hnext : (bytes ++ value).length ≤ webhookResponseLimit := by
        rw [List.length_append]
        omega
      obtain ⟨truncated, hread, htruncated⟩ := ih hnext
      refine ⟨truncated, by rw [hread, List.append_assoc, List.flatten_cons], ?_⟩
      rw [htruncated]
      simp only [IsTruncated, List.append_assoc, List.flatten_cons]
      cases values with
      | nil =>
        simp only [List.getLast?_nil, List.getLast?_singleton, List.flatten_nil, List.append_nil,
          reduceCtorEq, and_false, or_false, Option.some.injEq, iff_self_or, and_imp]
        intro hlength hempty
        simp only [hempty, List.append_nil] at hlength
        omega
      | cons next values => simp [List.getLast?_cons_cons]

section Recorded

variable [Platform]

/-- What is to be recorded of the bytes of a body. -/
structure RecordsBytes (bytes : List UInt8) (recorded : Option String) : Prop where
  null : recorded = none ↔ Platform.decodeText bytes = ""
  text : ∀ text, recorded = some text →
    text = Platform.decodeText (bytes.take webhookResponseLimit) ++
      if webhookResponseLimit < bytes.length then "\n[response truncated]" else ""

/-- The loop of a body that is read to its end. -/
theorem readBoundedResponse_spec (chunks : List (List UInt8)) :
    ∃ truncated, readBoundedResponse (some { chunks := chunks }) =
        some (boundedText (chunks.flatten.take webhookResponseLimit) truncated) ∧
      (truncated = true ↔ webhookResponseLimit < chunks.flatten.length ∨ EndsAtLimit chunks) := by
  obtain ⟨truncated, hread, htruncated⟩ := @readChunks_spec [] chunks (by simp)
  refine ⟨truncated, ?_, htruncated⟩
  unfold readBoundedResponse
  dsimp only
  rw [hread]
  rfl

/-- A body that ends in an empty chunk at the limit is marked, though nothing is left out. -/
theorem not_recordsBytes_of_endsAtLimit (hends : EndsAtLimit chunks) {recorded : Option String}
    (hrecorded : readBoundedResponse (some { chunks := chunks }) = some recorded) :
    ¬ RecordsBytes chunks.flatten recorded := by
  intro hbytes
  obtain ⟨truncated, hread, htruncated⟩ := readBoundedResponse_spec chunks
  have hmarked : truncated = true := htruncated.mpr (Or.inr hends)
  rw [hrecorded] at hread
  cases hread
  have htext := hbytes.text (Platform.decodeText (chunks.flatten.take webhookResponseLimit) ++
    "\n[response truncated]") (by simp [boundedText, hmarked])
  have hshort : ¬ webhookResponseLimit < chunks.flatten.length := by
    have hlength := hends.1
    omega
  rw [if_neg hshort, String.append_right_inj] at htext
  exact absurd htext (by decide)

/-- What is recorded of a body depends on its bytes alone, exactly where the body does not end in
an empty chunk at the limit. -/
theorem recordsBytes_iff (hdecode : ∀ bytes : List UInt8, 3 < bytes.length →
      Platform.decodeText bytes ≠ "") (chunks : List (List UInt8)) :
    (∃ recorded, readBoundedResponse (some { chunks := chunks }) = some recorded ∧
        RecordsBytes chunks.flatten recorded) ↔ ¬ EndsAtLimit chunks := by
  obtain ⟨truncated, hread, htruncated⟩ := readBoundedResponse_spec chunks
  rw [hread]
  constructor
  · rintro ⟨recorded, hrecorded, hbytes⟩ hends
    rw [← hread] at hrecorded
    exact not_recordsBytes_of_endsAtLimit hends hrecorded hbytes
  · intro hends
    refine ⟨_, rfl, ?_⟩
    by_cases hlong : webhookResponseLimit < chunks.flatten.length
    · have hmarked : truncated = true := htruncated.mpr (Or.inl hlong)
      have hlimit : 3 < webhookResponseLimit := by decide
      constructor
      · simp [boundedText, hmarked, hdecode _ (hlimit.trans hlong)]
      · intro text htext
        rw [if_pos hlong]
        simpa [boundedText, hmarked] using htext.symm
    · have hplain : truncated = false := by
        rw [Bool.eq_false_iff]
        intro hmarked
        rcases htruncated.mp hmarked with h | h
        · exact hlong h
        · exact hends h
      have hall : chunks.flatten.take webhookResponseLimit = chunks.flatten :=
        List.take_of_length_le (by omega)
      constructor
      · simp [boundedText, hplain, hall]
      · intro text htext
        rw [if_neg hlong, hall, String.append_empty]
        rw [hall, hplain, boundedText] at htext
        split_ifs at htext with hempty hmarked
        · cases hmarked
        · exact (Option.some.inj htext).symm

end Recorded

namespace BoundedResponsesExample

/-- A decoder of bytes below 128. -/
@[reducible] def platform : Platform :=
  { samplePlatform with
    decodeText := fun bytes => String.ofList (bytes.map fun byte => Char.ofNat byte.toNat) }

attribute [local instance] platform

/-- As many letters as the limit. -/
def letters : List UInt8 := List.replicate webhookResponseLimit 97

theorem decodeText_ne_empty (bytes : List UInt8) (h : 3 < bytes.length) :
    Platform.decodeText bytes ≠ "" := by
  intro hempty
  have hlist : bytes.map (fun byte => Char.ofNat byte.toNat) = [] := by
    rw [← String.toList_ofList (l := bytes.map fun byte => Char.ofNat byte.toNat)]
    exact String.toList_eq_nil_iff.mpr hempty
  have hnil : bytes = [] := List.map_eq_nil_iff.mp hlist
  rw [hnil] at h
  simp at h

/-- A body of one chunk, at the limit, is recorded as it is. -/
theorem letters_recorded :
    ∃ recorded, readBoundedResponse (some { chunks := [letters] }) = some recorded ∧
      RecordsBytes [letters].flatten recorded := by
  apply (recordsBytes_iff decodeText_ne_empty [letters]).mpr
  rintro ⟨-, hlast⟩
  have hnil : letters = [] := Option.some.inj hlast
  have hlength := congrArg List.length hnil
  rw [letters, List.length_replicate] at hlength
  exact absurd hlength (by decide)

/-- With an empty chunk after it, the same bytes are recorded as truncated. -/
theorem empty_chunk_marks :
    ¬ ∃ recorded, readBoundedResponse (some { chunks := [letters, []] }) = some recorded ∧
      RecordsBytes [letters, []].flatten recorded := by
  rintro ⟨recorded, hrecorded, hbytes⟩
  have hends : EndsAtLimit [letters, []] := ⟨by simp [letters], rfl⟩
  exact not_recordsBytes_of_endsAtLimit hends hrecorded hbytes

end BoundedResponsesExample

end Realmroot
