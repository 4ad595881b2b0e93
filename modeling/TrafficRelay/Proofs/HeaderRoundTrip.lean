import TrafficRelay.Proofs.DecimalSpelling
import TrafficRelay.Proofs.Fields
import TrafficRelay.Record

/-!
# Frames read back

The fields of a header consist of graphic characters, so there are as many as the
form asks for however they are read, and the header line ends where it was ended.
Whatever the body holds, a frame is read back as the record that it was made from.
-/

namespace TrafficRelay

theorem ne_space_of_isGraphic {byte : UInt8} (graphic : Bytes.isGraphic byte = true) :
    byte ≠ Bytes.space := by
  rintro rfl
  cases graphic

theorem ne_newline_of_isGraphic {byte : UInt8} (graphic : Bytes.isGraphic byte = true) :
    byte ≠ Bytes.newline := by
  rintro rfl
  cases graphic

theorem Kind.isGraphic_code (kind : Kind) : Bytes.isGraphic kind.code = true := by
  cases kind <;> rfl

theorem Kind.ofCode?_code (kind : Kind) : Kind.ofCode? kind.code = some kind := by
  cases kind <;> rfl

theorem Ident.ofBytes?_bytes (ident : Ident) : Ident.ofBytes? ident.bytes = some ident := by
  rw [Ident.ofBytes?, dif_pos ⟨ident.length_eq, ident.graphic⟩]

theorem AckToken.ofBytes?_bytes (ack : AckToken) :
    AckToken.ofBytes? ack.bytes = some ack := by
  rw [AckToken.ofBytes?, dif_pos ack.valid]

/-- The fields that follow kind and identity. -/
def HeaderForm.fields : HeaderForm → List Bytes
  | full timestamp latency =>
      [Decimal.ofInt64 timestamp.nanoseconds, Decimal.ofInt64 latency]
  | capture ack => [ack.bytes]

namespace Header

def fields (header : Header) : List Bytes :=
  [header.kind.code] :: header.ident.bytes :: header.form.fields

theorem line_eq_intercalate (header : Header) :
    header.line = [Bytes.space].intercalate header.fields := by
  obtain ⟨kind, ident, form⟩ := header
  cases form <;>
    simp [line, fields, HeaderForm.bytes, HeaderForm.fields, List.intercalate]

theorem isGraphic_of_mem_fields (header : Header) :
    ∀ field ∈ header.fields, ∀ byte ∈ field, Bytes.isGraphic byte = true := by
  intro field member byte inField
  rcases List.mem_cons.mp member with rfl | member
  · rw [List.mem_singleton.mp inField]
    exact header.kind.isGraphic_code
  · rcases List.mem_cons.mp member with rfl | member
    · exact List.all_eq_true.mp header.ident.graphic byte inField
    · cases form : header.form with
      | full timestamp latency =>
          rw [form] at member
          have spelled : ∃ value, Decimal.Spells field value := by
            rcases List.mem_cons.mp member with rfl | isLatency
            · exact ⟨_, Decimal.spells_ofInt timestamp.nanoseconds.toInt⟩
            · rw [List.mem_singleton.mp isLatency]
              exact ⟨_, Decimal.spells_ofInt latency.toInt⟩
          obtain ⟨value, spells⟩ := spelled
          exact spells.isGraphic byte inField
      | capture ack =>
          rw [form] at member
          rw [List.mem_singleton.mp member] at inField
          exact List.all_eq_true.mp (Bool.and_eq_true_iff.mp ack.valid).2 byte inField

theorem splitOn_line (header : Header) :
    Bytes.splitOn Bytes.space header.line = header.fields := by
  rw [Bytes.splitOn_eq_iff]
  refine ⟨List.cons_ne_nil _ _, ?_, header.line_eq_intercalate.symm⟩
  intro field member inField
  exact ne_space_of_isGraphic
    (header.isGraphic_of_mem_fields field member _ inField) rfl

theorem newline_not_mem_line (header : Header) : Bytes.newline ∉ header.line := by
  rw [header.line_eq_intercalate]
  intro member
  rcases Bytes.mem_intercalate member with same | ⟨field, inFields, inField⟩
  · cases same
  · exact ne_newline_of_isGraphic
      (header.isGraphic_of_mem_fields field inFields _ inField) rfl

theorem readKind_code (kind : Kind) : readKind [kind.code] = .ok kind := by
  simp only [readKind, kind.ofCode?_code]

theorem readIdent_bytes (ident : Ident) : readIdent ident.bytes = .ok ident := by
  simp only [readIdent, ident.ofBytes?_bytes]

theorem readCapture_bytes (ack : AckToken) :
    readCapture ack.bytes = .ok (.capture ack) := by
  simp only [readCapture, ack.ofBytes?_bytes]

theorem readFull_words {timestampField latencyField : Bytes} {timestamp latency : Int64}
    (timestampSpelled : Decimal.Spells timestampField timestamp.toInt)
    (latencySpelled : Decimal.Spells latencyField latency.toInt) :
    readFull timestampField latencyField = .ok (.full ⟨timestamp⟩ latency) := by
  simp only [readFull, Decimal.readInt64?_eq_some_iff.mpr timestampSpelled,
    Decimal.readInt64?_eq_some_iff.mpr latencySpelled]

theorem ofFields_fields (header : Header) : ofFields header.fields = .ok header := by
  obtain ⟨kind, ident, form⟩ := header
  cases form with
  | full timestamp latency =>
      have readsForm := readFull_words
        (Decimal.spells_ofInt timestamp.nanoseconds.toInt)
        (Decimal.spells_ofInt latency.toInt)
      simp only [fields, HeaderForm.fields, ofFields, readKind_code, readIdent_bytes]
      exact congrArg (Except.map fun form => Header.mk kind ident form) readsForm
  | capture ack =>
      simp only [fields, HeaderForm.fields, ofFields, readKind_code, readIdent_bytes,
        readCapture_bytes]
      rfl

theorem ofLine_line (header : Header) : ofLine header.line = .ok header := by
  rw [ofLine, splitOn_line, ofFields_fields]

end Header

namespace Record

theorem encode_eq (record : Record) :
    record.encode = record.header.line ++ Bytes.newline :: record.body := by
  simp [encode, Header.encode]

theorem decode_line {line : Bytes} (absent : Bytes.newline ∉ line) (body : Bytes) :
    decode (line ++ Bytes.newline :: body) =
      (Header.ofLine line).map fun header => ⟨header, body⟩ := by
  rw [decode, Bytes.cutLine?_line absent]
  dsimp only
  cases Header.ofLine line <;> rfl

theorem bodyOffset_line {line : Bytes} (absent : Bytes.newline ∉ line) (body : Bytes) :
    bodyOffset (line ++ Bytes.newline :: body) = line.length + 1 := by
  rw [bodyOffset, Bytes.takeWhile_line absent]

theorem decode_encode (record : Record) : decode record.encode = .ok record := by
  rw [encode_eq, decode_line record.header.newline_not_mem_line, Header.ofLine_line]
  rfl

/-- Every frame is read back as its record, the body starting right after the
encoded header.  So two records with one frame are the same, and neither form of a
header is ever read as the other. -/
theorem encode_reads_back (record : Record) :
    decode record.encode = .ok record ∧
      bodyOffset record.encode = record.header.encode.length ∧
      record.encode.drop (bodyOffset record.encode) = record.body ∧
      (∀ other : Record, other.encode = record.encode → other = record) ∧
      ∀ read, decode record.encode = .ok read →
        (read.header.timestamp?.isSome = record.header.timestamp?.isSome ∧
          read.header.ack?.isSome = record.header.ack?.isSome) := by
  have offset : bodyOffset record.encode = record.header.encode.length := by
    rw [encode_eq, bodyOffset_line record.header.newline_not_mem_line]
    simp [Header.encode]
  refine ⟨record.decode_encode, offset, ?_, ?_, ?_⟩
  · rw [offset, encode]
    exact List.drop_left
  · intro other same
    have read := other.decode_encode
    rw [same, record.decode_encode] at read
    exact (Except.ok.inj read).symm
  · intro read found
    rw [record.decode_encode] at found
    cases found
    exact ⟨rfl, rfl⟩

/-- The least and the greatest word in the header, and a body that starts like the
header of a capture. -/
theorem encode_reads_back_extremes :
    let ident : Ident := ⟨List.replicate 24 126, by decide, by decide⟩
    let body : Bytes := [10, 49, 32] ++ List.replicate 24 97 ++ [32, 55, 10]
    let record : Record :=
      ⟨⟨.replayReport, ident, .full ⟨Int64.minValue⟩ Int64.maxValue⟩, body⟩
    let captured : Record := ⟨⟨.replayReport, ident, .capture ⟨[49], by decide⟩⟩, body⟩
    decode record.encode = .ok record ∧
      record.encode.drop (bodyOffset record.encode) = body ∧
      captured.encode ≠ record.encode ∧ record.header.ack?.isSome = false := by
  intro ident body record captured
  obtain ⟨decoded, -, rest, injective, sameForm⟩ := record.encode_reads_back
  refine ⟨decoded, rest, ?_, (sameForm record decoded).2⟩
  intro same
  have equal := injective captured same
  cases congrArg (fun read : Record => read.header.form) equal

end Record

end TrafficRelay
