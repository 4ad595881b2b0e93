import TrafficRelay.Proofs.HeaderGrammar
import TrafficRelay.Proofs.PlainSpelling

/-!
# Frames that are encoded again

A frame that was read is the fields of its header with single spaces between
them, a newline and the body.  Encoding the record again spells the integers of
a full header plainly and changes nothing else.
-/

namespace TrafficRelay

namespace Header

/-- The header line of a frame, cut at every space. -/
def fieldsOf (frame : Bytes) : List Bytes :=
  List.splitOn Bytes.space (frame.takeWhile (· ≠ Bytes.newline))

namespace Classifies

variable {header : Header} {fields : List Bytes}

theorem length_line_le (classifies : Classifies fields (.ok header)) :
    header.line.length ≤ ([Bytes.space].intercalate fields).length := by
  rw [header.line_eq_intercalate]
  cases classifies with
  | capture => exact Nat.le_refl _
  | full timestampSpelled latencySpelled =>
      have timestampLength := timestampSpelled.length_ofInt_le
      have latencyLength := latencySpelled.length_ofInt_le
      simp only [Header.fields, HeaderForm.fields, Decimal.ofInt64,
        List.intercalate_cons_cons, List.intercalate_singleton, List.length_append]
      omega

/-- The integer fields are plain exactly if they are what is written. -/
theorem plain_iff {kind ident timestampField latencyField : Bytes}
    {timestamp : Timestamp} {latency : Int64}
    (classifies : Classifies [kind, ident, timestampField, latencyField] (.ok header))
    (form : header.form = .full timestamp latency) :
    (Decimal.Plain timestampField ↔
        timestampField = Decimal.ofInt64 timestamp.nanoseconds) ∧
      (Decimal.Plain latencyField ↔ latencyField = Decimal.ofInt64 latency) := by
  cases classifies with
  | full timestampSpelled latencySpelled =>
      cases form
      exact ⟨timestampSpelled.plain_iff, latencySpelled.plain_iff⟩

theorem fields_eq_iff (classifies : Classifies fields (.ok header)) :
    header.fields = fields ↔
      (∃ ack, header.form = .capture ack) ∨
        ∃ kind ident timestamp latency, fields = [kind, ident, timestamp, latency] ∧
          Decimal.Plain timestamp ∧ Decimal.Plain latency := by
  cases classifies with
  | @capture kind ident ack =>
      constructor
      · intro same
        exact Or.inl ⟨ack, rfl⟩
      · intro any
        rfl
  | @full kind ident timestampField latencyField timestamp latency
      timestampSpelled latencySpelled =>
      have timestampPlain := timestampSpelled.plain_iff
      have latencyPlain := latencySpelled.plain_iff
      constructor
      · intro same
        simp only [Header.fields, HeaderForm.fields, List.cons.injEq, true_and,
          and_true] at same
        obtain ⟨sameTimestamp, sameLatency⟩ := same
        right
        refine ⟨_, _, _, _, rfl, ?_, ?_⟩
        · exact timestampPlain.mpr sameTimestamp.symm
        · exact latencyPlain.mpr sameLatency.symm
      · rintro (⟨ack, same⟩ | ⟨_, _, _, _, same, firstPlain, secondPlain⟩)
        · cases same
        · cases same
          have sameTimestamp := timestampPlain.mp firstPlain
          have sameLatency := latencyPlain.mp secondPlain
          rw [sameTimestamp, sameLatency]
          rfl

end Classifies

end Header

namespace Record

/-- What a frame that was read consists of. -/
theorem exists_fields_of_decode {frame : Bytes} {record : Record}
    (decoded : decode frame = .ok record) :
    frame = [Bytes.space].intercalate (Header.fieldsOf frame) ++
        Bytes.newline :: record.body ∧
      (∀ field ∈ Header.fieldsOf frame, Bytes.space ∉ field) ∧
      Header.Classifies (Header.fieldsOf frame) (.ok record.header) := by
  have terminated : Bytes.newline ∈ frame := by
    by_contra absent
    rw [decode, Bytes.cutLine?_eq_none absent] at decoded
    cases decoded
  obtain ⟨line, body, absent, rfl⟩ := Bytes.exists_line_of_newline_mem terminated
  have fields : Header.fieldsOf (line ++ Bytes.newline :: body) =
      Bytes.splitOn Bytes.space line := by
    rw [Header.fieldsOf, Bytes.takeWhile_line absent, Bytes.splitOn_eq_list_splitOn]
  obtain ⟨nonempty, noSpace, joined⟩ := Bytes.splitOn_eq_iff.mp fields.symm
  rw [decode_line absent] at decoded
  cases read : Header.ofLine line with
  | error error =>
      rw [read] at decoded
      cases decoded
  | ok header =>
      rw [read] at decoded
      cases decoded
      refine ⟨by rw [joined], noSpace, ?_⟩
      rw [Header.ofLine, ← fields] at read
      exact (Header.ofFields_eq_iff nonempty).mp read

/-- A frame is encoded again as it was exactly if its fields are those that are
written. -/
theorem encode_eq_iff_fields {frame : Bytes} {record : Record}
    (decoded : decode frame = .ok record) :
    record.encode = frame ↔ record.header.fields = Header.fieldsOf frame := by
  obtain ⟨shape, noSpace, -⟩ := exists_fields_of_decode decoded
  have some : Header.fieldsOf frame ≠ [] := List.splitOn_ne_nil _ _
  have cut : Bytes.splitOn Bytes.space
      ([Bytes.space].intercalate (Header.fieldsOf frame)) = Header.fieldsOf frame :=
    Bytes.splitOn_eq_iff.mpr ⟨some, noSpace, rfl⟩
  constructor
  · intro same
    rw [encode_eq, shape, List.append_cancel_right_eq] at same
    rw [← cut, ← same, Header.splitOn_line]
  · intro same
    rw [encode_eq, record.header.line_eq_intercalate, same, ← shape]

/-- Encoding what was read gives a frame of the same record, which is its own
encoding and at most as long.  It is the frame that was read exactly if that has
the capture form or spells both its integers plainly, which is the way in which
they are written. -/
theorem encode_normalises {frame : Bytes} {record : Record}
    (decoded : decode frame = .ok record) :
    decode record.encode = .ok record ∧
      (∀ again, decode record.encode = .ok again → again.encode = record.encode) ∧
      record.encode.length ≤ frame.length ∧
      (record.encode = frame ↔
        (∃ ack, record.header.form = .capture ack) ∨
          ∃ kind ident timestamp latency,
            Header.fieldsOf frame = [kind, ident, timestamp, latency] ∧
              Decimal.Plain timestamp ∧ Decimal.Plain latency) ∧
      ∀ kind ident timestampField latencyField timestamp latency,
        Header.fieldsOf frame = [kind, ident, timestampField, latencyField] →
        record.header.form = .full timestamp latency →
        (Decimal.Plain timestampField ↔
            timestampField = Decimal.ofInt64 timestamp.nanoseconds) ∧
          (Decimal.Plain latencyField ↔ latencyField = Decimal.ofInt64 latency) := by
  obtain ⟨shape, -, classifies⟩ := exists_fields_of_decode decoded
  refine ⟨record.decode_encode, ?_, ?_, ?_, ?_⟩
  · intro again read
    rw [record.decode_encode] at read
    rw [Except.ok.inj read]
  · have shorter := classifies.length_line_le
    rw [shape, encode_eq, List.length_append, List.length_append]
    exact Nat.add_le_add_right shorter _
  · rw [encode_eq_iff_fields decoded]
    exact classifies.fields_eq_iff
  · intro kind ident timestampField latencyField timestamp latency fields form
    rw [fields] at classifies
    exact classifies.plain_iff form

/-- A timestamp with a plus sign and leading zeros and a negative zero for the
latency lose four characters. -/
theorem encode_normalises_spellings :
    let ident : Ident := ⟨List.replicate 24 97, by decide, by decide⟩
    let body : Bytes := [32, 10, 48]
    let frame : Bytes :=
      [49, 32] ++ ident.bytes ++ [32, 43, 48, 48, 55, 32, 45, 48, 10] ++ body
    let record : Record := ⟨⟨.request, ident, .full ⟨7⟩ 0⟩, body⟩
    decode frame = .ok record ∧ decode record.encode = .ok record ∧
      record.encode.length ≤ frame.length ∧ record.encode ≠ frame ∧
      record.encode = [49, 32] ++ ident.bytes ++ [32, 55, 32, 48, 10] ++ body := by
  intro ident body frame record
  have decoded : decode frame = .ok record := by rfl
  obtain ⟨again, -, shorter, same, -⟩ := encode_normalises decoded
  refine ⟨decoded, again, shorter, ?_, ?_⟩
  · intro unchanged
    rcases same.mp unchanged with ⟨ack, form⟩ | ⟨_, _, _, _, fields, plain, -⟩
    · cases form
    · have spelled : Header.fieldsOf frame =
          [[49], ident.bytes, [43, 48, 48, 55], [45, 48]] := by decide
      rw [spelled] at fields
      cases fields
      exact plain.noPlus rfl
  · have seven : Decimal.ofInt64 7 = [55] := Decimal.ofNat_of_lt (by decide)
    have zero : Decimal.ofInt64 0 = [48] := Decimal.ofNat_of_lt (by decide)
    simp only [record, encode, Header.encode, Header.line, HeaderForm.bytes, seven, zero]
    rfl

end Record

end TrafficRelay
