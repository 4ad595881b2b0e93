import TrafficRelay.Proofs.HeaderRoundTrip

/-!
# The grammar of header lines

`Header.Classifies` says what becomes of the fields of a header line: which form
they make up, or which of the errors comes first.  The reader computes exactly this
relation, for the pieces between the single spaces of a frame's first line, and
never looks at what follows that line.
-/

namespace TrafficRelay

namespace Header

def IsKindField (field : Bytes) : Prop := field = [49] ∨ field = [50] ∨ field = [51]

/-- Twenty-four visible ASCII characters. -/
def IsIdentField (field : Bytes) : Prop :=
  field.length = 24 ∧ ∀ byte ∈ field, 33 ≤ byte ∧ byte ≤ 126

def IsAckField (field : Bytes) : Prop :=
  field ≠ [] ∧ ∀ byte ∈ field, 33 ≤ byte ∧ byte ≤ 126

/-- A spelling of an integer that a signed 64-bit word can hold. -/
def IsWordField (field : Bytes) : Prop :=
  ∃ value, Decimal.Spells field value ∧ -2 ^ 63 ≤ value ∧ value < 2 ^ 63

/-- What becomes of the fields of a header line. -/
inductive Classifies : List Bytes → Except HeaderError Header → Prop where
  | tooManyFields {fields : List Bytes} :
      5 ≤ fields.length → Classifies fields (.error (.fieldCount 5))
  | unknownKind {kind : Bytes} {others : List Bytes} :
      others.length < 4 → ¬IsKindField kind →
      Classifies (kind :: others) (.error .unknownKind)
  | missingIdent {kind : Bytes} :
      IsKindField kind → Classifies [kind] (.error .invalidIdent)
  | invalidIdent {kind ident : Bytes} {others : List Bytes} :
      others.length < 3 → IsKindField kind → ¬IsIdentField ident →
      Classifies (kind :: ident :: others) (.error .invalidIdent)
  | missingForm {kind ident : Bytes} :
      IsKindField kind → IsIdentField ident →
      Classifies [kind, ident] (.error (.fieldCount 2))
  | invalidAck {kind ident ack : Bytes} :
      IsKindField kind → IsIdentField ident → ¬IsAckField ack →
      Classifies [kind, ident, ack] (.error .invalidAck)
  | capture {kind : Kind} {ident : Ident} {ack : AckToken} :
      Classifies [[kind.code], ident.bytes, ack.bytes]
        (.ok ⟨kind, ident, .capture ack⟩)
  | invalidTimestamp {kind ident timestamp latency : Bytes} :
      IsKindField kind → IsIdentField ident → ¬IsWordField timestamp →
      Classifies [kind, ident, timestamp, latency] (.error .invalidTimestamp)
  | invalidLatency {kind ident timestamp latency : Bytes} :
      IsKindField kind → IsIdentField ident → IsWordField timestamp →
      ¬IsWordField latency →
      Classifies [kind, ident, timestamp, latency] (.error .invalidLatency)
  | full {kind : Kind} {ident : Ident} {timestampField latencyField : Bytes}
      {timestamp : Timestamp} {latency : Int64} :
      Decimal.Spells timestampField timestamp.nanoseconds.toInt →
      Decimal.Spells latencyField latency.toInt →
      Classifies [[kind.code], ident.bytes, timestampField, latencyField]
        (.ok ⟨kind, ident, .full timestamp latency⟩)

theorem isGraphic_iff {byte : UInt8} :
    Bytes.isGraphic byte = true ↔ 33 ≤ byte ∧ byte ≤ 126 := by
  simp [Bytes.isGraphic]

theorem isKindField_iff {field : Bytes} :
    IsKindField field ↔ ∃ kind : Kind, field = [kind.code] := by
  constructor
  · rintro (rfl | rfl | rfl)
    · exact ⟨.request, rfl⟩
    · exact ⟨.response, rfl⟩
    · exact ⟨.replayReport, rfl⟩
  · rintro ⟨kind, rfl⟩
    cases kind <;> simp [IsKindField, Kind.code]

theorem isIdentField_iff {field : Bytes} :
    IsIdentField field ↔ ∃ ident : Ident, field = ident.bytes := by
  constructor
  · rintro ⟨length, graphic⟩
    have valid : field.all Bytes.isGraphic = true := by
      rw [List.all_eq_true]
      intro byte member
      exact isGraphic_iff.mpr (graphic byte member)
    exact ⟨⟨field, length, valid⟩, rfl⟩
  · rintro ⟨ident, rfl⟩
    refine ⟨ident.length_eq, ?_⟩
    intro byte member
    exact isGraphic_iff.mp (List.all_eq_true.mp ident.graphic byte member)

theorem isAckField_iff {field : Bytes} :
    IsAckField field ↔ ∃ ack : AckToken, field = ack.bytes := by
  constructor
  · rintro ⟨nonempty, graphic⟩
    have valid : (!field.isEmpty && field.all Bytes.isGraphic) = true := by
      rw [Bool.and_eq_true, List.all_eq_true]
      refine ⟨by simpa using nonempty, ?_⟩
      intro byte member
      exact isGraphic_iff.mpr (graphic byte member)
    exact ⟨⟨field, valid⟩, rfl⟩
  · rintro ⟨ack, rfl⟩
    obtain ⟨nonempty, graphic⟩ := Bool.and_eq_true_iff.mp ack.valid
    refine ⟨by simpa using nonempty, ?_⟩
    intro byte member
    exact isGraphic_iff.mp (List.all_eq_true.mp graphic byte member)

theorem isWordField_iff {field : Bytes} :
    IsWordField field ↔ ∃ word : Int64, Decimal.Spells field word.toInt := by
  constructor
  · rintro ⟨value, spells, lower, upper⟩
    refine ⟨Int64.ofInt value, ?_⟩
    rw [Int64.toInt_ofInt_of_le lower upper]
    exact spells
  · rintro ⟨word, spells⟩
    exact ⟨word.toInt, spells, word.le_toInt, word.toInt_lt⟩

theorem readKind_of_not {field : Bytes} (invalid : ¬IsKindField field) :
    readKind field = .error .unknownKind := by
  unfold readKind
  split
  · rename_i code
    have unknown : Kind.ofCode? code = none := by
      unfold Kind.ofCode?
      simp only [IsKindField, List.cons.injEq, and_true, not_or] at invalid
      rw [if_neg invalid.1, if_neg invalid.2.1, if_neg invalid.2.2]
    rw [unknown]
  · rfl

theorem readIdent_of_not {field : Bytes} (invalid : ¬IsIdentField field) :
    readIdent field = .error .invalidIdent := by
  have refused : Ident.ofBytes? field = none := by
    rw [Ident.ofBytes?, dif_neg]
    rintro ⟨length, graphic⟩
    exact invalid (isIdentField_iff.mpr ⟨⟨field, length, graphic⟩, rfl⟩)
  simp only [readIdent, refused]

theorem readCapture_of_not {field : Bytes} (invalid : ¬IsAckField field) :
    readCapture field = .error .invalidAck := by
  have refused : AckToken.ofBytes? field = none := by
    rw [AckToken.ofBytes?, dif_neg]
    intro valid
    exact invalid (isAckField_iff.mpr ⟨⟨field, valid⟩, rfl⟩)
  simp only [readCapture, refused]

theorem readFull_of_not_timestamp {timestampField latencyField : Bytes}
    (invalid : ¬IsWordField timestampField) :
    readFull timestampField latencyField = .error .invalidTimestamp := by
  simp only [readFull, Decimal.readInt64?_eq_none_iff.mpr invalid]

theorem readFull_of_not_latency {timestampField latencyField : Bytes}
    {timestamp : Int64}
    (timestampSpelled : Decimal.Spells timestampField timestamp.toInt)
    (invalid : ¬IsWordField latencyField) :
    readFull timestampField latencyField = .error .invalidLatency := by
  simp only [readFull, Decimal.readInt64?_eq_some_iff.mpr timestampSpelled,
    Decimal.readInt64?_eq_none_iff.mpr invalid]

theorem ofFields_of_five_le {fields : List Bytes} (many : 5 ≤ fields.length) :
    ofFields fields = .error (.fieldCount 5) := by
  unfold ofFields
  split
  case h_6 => rfl
  all_goals
    simp only [List.length_cons, List.length_nil] at many
    omega

theorem ofFields_of_unknownKind {kind : Bytes} {others : List Bytes}
    (few : others.length < 4) (refused : readKind kind = .error .unknownKind) :
    ofFields (kind :: others) = .error .unknownKind := by
  rcases others with _ | ⟨_, _ | ⟨_, _ | ⟨_, _ | ⟨_, _⟩⟩⟩⟩
  case cons.cons.cons.cons =>
    simp only [List.length_cons] at few
    omega
  all_goals
    simp only [ofFields, refused]
    rfl

theorem ofFields_of_invalidIdent {kind : Kind} {ident : Bytes} {others : List Bytes}
    (few : others.length < 3) (refused : readIdent ident = .error .invalidIdent) :
    ofFields ([kind.code] :: ident :: others) = .error .invalidIdent := by
  rcases others with _ | ⟨_, _ | ⟨_, _ | ⟨_, _⟩⟩⟩
  case cons.cons.cons =>
    simp only [List.length_cons] at few
    omega
  all_goals
    simp only [ofFields, readKind_code, refused]
    rfl

theorem Classifies.ofFields_eq {fields : List Bytes} {outcome : Except HeaderError Header}
    (classifies : Classifies fields outcome) : ofFields fields = outcome := by
  cases classifies with
  | tooManyFields many => exact ofFields_of_five_le many
  | unknownKind few invalid =>
      exact ofFields_of_unknownKind few (readKind_of_not invalid)
  | missingIdent validKind =>
      obtain ⟨kind, rfl⟩ := isKindField_iff.mp validKind
      simp only [ofFields, readKind_code]
      rfl
  | invalidIdent few validKind invalid =>
      obtain ⟨kind, rfl⟩ := isKindField_iff.mp validKind
      exact ofFields_of_invalidIdent few (readIdent_of_not invalid)
  | missingForm validKind validIdent =>
      obtain ⟨kind, rfl⟩ := isKindField_iff.mp validKind
      obtain ⟨ident, rfl⟩ := isIdentField_iff.mp validIdent
      simp only [ofFields, readKind_code, readIdent_bytes]
      rfl
  | invalidAck validKind validIdent invalid =>
      obtain ⟨kind, rfl⟩ := isKindField_iff.mp validKind
      obtain ⟨ident, rfl⟩ := isIdentField_iff.mp validIdent
      simp only [ofFields, readKind_code, readIdent_bytes, readCapture_of_not invalid]
      rfl
  | capture =>
      simp only [ofFields, readKind_code, readIdent_bytes, readCapture_bytes]
      rfl
  | invalidTimestamp validKind validIdent invalid =>
      obtain ⟨kind, rfl⟩ := isKindField_iff.mp validKind
      obtain ⟨ident, rfl⟩ := isIdentField_iff.mp validIdent
      simp only [ofFields, readKind_code, readIdent_bytes,
        readFull_of_not_timestamp invalid]
      rfl
  | invalidLatency validKind validIdent validTimestamp invalid =>
      obtain ⟨kind, rfl⟩ := isKindField_iff.mp validKind
      obtain ⟨ident, rfl⟩ := isIdentField_iff.mp validIdent
      obtain ⟨timestamp, spells⟩ := isWordField_iff.mp validTimestamp
      simp only [ofFields, readKind_code, readIdent_bytes,
        readFull_of_not_latency spells invalid]
      rfl
  | full timestampSpelled latencySpelled =>
      simp only [ofFields, readKind_code, readIdent_bytes,
        readFull_words timestampSpelled latencySpelled]
      rfl

theorem Classifies.fieldCount {fields : List Bytes} {found : Nat}
    (classifies : Classifies fields (.error (.fieldCount found))) :
    found = 2 ∨ found = 5 := by
  cases classifies with
  | tooManyFields many => exact Or.inr rfl
  | missingForm validKind validIdent => exact Or.inl rfl

/-- Every line has an outcome. -/
theorem exists_classifies {fields : List Bytes} (nonempty : fields ≠ []) :
    ∃ outcome, Classifies fields outcome := by
  by_cases many : 5 ≤ fields.length
  · exact ⟨_, .tooManyFields many⟩
  obtain ⟨kindField, others, rfl⟩ := List.exists_cons_of_ne_nil nonempty
  by_cases validKind : IsKindField kindField
  · match others with
    | [] => exact ⟨_, .missingIdent validKind⟩
    | identField :: rest =>
        by_cases validIdent : IsIdentField identField
        · obtain ⟨kind, rfl⟩ := isKindField_iff.mp validKind
          obtain ⟨ident, rfl⟩ := isIdentField_iff.mp validIdent
          match rest with
          | [] => exact ⟨_, .missingForm validKind validIdent⟩
          | [ackField] =>
              by_cases validAck : IsAckField ackField
              · obtain ⟨ack, rfl⟩ := isAckField_iff.mp validAck
                exact ⟨_, .capture⟩
              · exact ⟨_, .invalidAck validKind validIdent validAck⟩
          | [timestampField, latencyField] =>
              by_cases validTimestamp : IsWordField timestampField
              · by_cases validLatency : IsWordField latencyField
                · obtain ⟨timestamp, timestampSpelled⟩ := isWordField_iff.mp validTimestamp
                  obtain ⟨latency, latencySpelled⟩ := isWordField_iff.mp validLatency
                  exact ⟨.ok ⟨kind, ident, .full ⟨timestamp⟩ latency⟩,
                    .full timestampSpelled latencySpelled⟩
                · exact ⟨_, .invalidLatency validKind validIdent validTimestamp validLatency⟩
              · exact ⟨_, .invalidTimestamp validKind validIdent validTimestamp⟩
          | _ :: _ :: _ :: _ =>
              simp only [List.length_cons] at many
              omega
        · refine ⟨_, .invalidIdent ?_ validKind validIdent⟩
          simp only [List.length_cons] at many
          omega
  · refine ⟨_, .unknownKind ?_ validKind⟩
    simp only [List.length_cons] at many
    omega

theorem ofFields_eq_iff {fields : List Bytes} (nonempty : fields ≠ [])
    {outcome : Except HeaderError Header} :
    ofFields fields = outcome ↔ Classifies fields outcome := by
  constructor
  · rintro rfl
    obtain ⟨outcome, classifies⟩ := exists_classifies nonempty
    rw [classifies.ofFields_eq]
    exact classifies
  · intro classifies
    exact classifies.ofFields_eq

end Header

namespace Record

/-- A frame without a newline has no header.  Of any other frame the first line is
classified by its fields between single spaces, and whatever follows the line is
the body.  A field count that is reported is two or five. -/
theorem decode_classifies (frame : Bytes) :
    (Bytes.newline ∉ frame → decode frame = .error .unterminated) ∧
      (Bytes.newline ∈ frame → ∃ line body,
        frame = line ++ Bytes.newline :: body ∧ Bytes.newline ∉ line ∧
        (∀ outcome, (decode frame).map Record.header = outcome ↔
          Header.Classifies (List.splitOn Bytes.space line) outcome) ∧
        bodyOffset frame = line.length + 1 ∧
        (∀ record, decode frame = .ok record → record.body = body) ∧
        ∀ other, (decode (line ++ Bytes.newline :: other)).map Record.header =
          (decode frame).map Record.header) ∧
      ∀ found, decode frame = .error (.fieldCount found) → found = 2 ∨ found = 5 := by
  have unterminated (absent : Bytes.newline ∉ frame) :
      decode frame = .error .unterminated := by
    rw [decode, Bytes.cutLine?_eq_none absent]
  have headerOf {line : Bytes} (absent : Bytes.newline ∉ line) (body : Bytes) :
      (decode (line ++ Bytes.newline :: body)).map Record.header =
        Header.ofFields (List.splitOn Bytes.space line) := by
    rw [decode_line absent, Header.ofLine, Bytes.splitOn_eq_list_splitOn]
    cases Header.ofFields (List.splitOn Bytes.space line) <;> rfl
  refine ⟨unterminated, ?_, ?_⟩
  · intro present
    obtain ⟨line, body, absent, rfl⟩ := Bytes.exists_line_of_newline_mem present
    refine ⟨line, body, rfl, absent, ?_, bodyOffset_line absent body, ?_, ?_⟩
    · intro outcome
      rw [headerOf absent]
      exact Header.ofFields_eq_iff (List.splitOn_ne_nil Bytes.space line)
    · intro record decoded
      rw [decode_line absent] at decoded
      cases read : Header.ofLine line with
      | error error =>
          rw [read] at decoded
          cases decoded
      | ok header =>
          rw [read] at decoded
          cases decoded
          rfl
    · intro other
      rw [headerOf absent, headerOf absent]
  · intro found decoded
    by_cases present : Bytes.newline ∈ frame
    · obtain ⟨line, body, absent, rfl⟩ := Bytes.exists_line_of_newline_mem present
      have counted := headerOf absent body
      rw [decoded] at counted
      have classifies := (Header.ofFields_eq_iff
        (List.splitOn_ne_nil Bytes.space line)).mp counted.symm
      exact classifies.fieldCount
    · rw [unterminated present] at decoded
      cases decoded

/-- A latency that is one too small for a word, after a timestamp with a sign and
leading zeros; and a line of two fields. -/
theorem decode_classifies_out_of_range :
    let ident : Bytes := List.replicate 24 97
    let tooSmall : Bytes :=
      [45, 57, 50, 50, 51, 51, 55, 50, 48, 51, 54, 56, 53, 52, 55, 55, 53, 56, 48, 57]
    let frame : Bytes := [51, 32] ++ ident ++ [32, 43, 48, 48, 55, 32] ++ tooSmall ++ [10, 10]
    let short : Bytes := [49, 32] ++ ident ++ [10]
    (∃ line body, frame = line ++ Bytes.newline :: body ∧
        Header.Classifies (List.splitOn Bytes.space line) (.error .invalidLatency)) ∧
      decode ident = .error .unterminated ∧
      decode short = .error (.fieldCount 2) ∧ (2 = 2 ∨ 2 = 5) := by
  intro ident tooSmall frame short
  obtain ⟨line, body, cut, -, classified, -⟩ :=
    (decode_classifies frame).2.1 (by decide)
  have refused : decode short = .error (.fieldCount 2) := by rfl
  refine ⟨⟨line, body, cut, (classified _).mp ?_⟩, ?_, refused, ?_⟩
  · rfl
  · exact (decode_classifies ident).1 (by decide)
  · exact (decode_classifies short).2.2 2 refused

end Record

end TrafficRelay
