import TrafficRelay.Json.Reader
import TrafficRelay.Proofs.JsonScanning

/-!
# Reading what was written

The tokens of a value lead the reader from before the value to after it, whatever
containers are open around it.  So a value whose tokens are well formed is read from
its text as it was, with or without indentation.
-/

namespace TrafficRelay

namespace Json

/-- An array is open once its first item begins. -/
theorem ReadState.step?_inNewArray {token : Token} (goesOn : token ≠ .endArray)
    (outer : List OpenContainer) :
    step? (.inNewArray outer) token = step? (.beforeValue (.array [] :: outer)) token := by
  cases token <;> first | rfl | exact (goesOn rfl).elim

/-- No value starts with the end of an array. -/
theorem exists_tokens_cons (value : Json) :
    ∃ first rest, value.tokens = first :: rest ∧ first ≠ .endArray := by
  cases value <;> exact ⟨_, _, by rw [tokens], Token.noConfusion⟩

theorem exists_itemTokens_cons (item : Json) (items : List Json) :
    ∃ first rest, itemTokens (item :: items) = first :: rest ∧ first ≠ .endArray := by
  obtain ⟨first, rest, shape, goesOn⟩ := item.exists_tokens_cons
  cases items with
  | nil =>
      rw [itemTokens, shape]
      exact ⟨first, rest, rfl, goesOn⟩
  | cons next items =>
      rw [itemTokens, shape]
      exact ⟨first, _, rfl, goesOn⟩

theorem exists_memberTokens_cons (member : Text × Json) (members : List (Text × Json)) :
    ∃ rest, memberTokens (member :: members) = .string member.1 :: rest := by
  cases members with
  | nil => exact ⟨_, by rw [memberTokens]⟩
  | cons next members => exact ⟨_, by rw [memberTokens]⟩

mutual

theorem foldlM_tokens (value : Json) (outer : List OpenContainer) :
    value.tokens.foldlM ReadState.step? (.beforeValue outer) =
      some (.afterValue value outer) := by
  cases value with
  | null => rw [tokens]; rfl
  | bool value => rw [tokens]; rfl
  | number spelling => rw [tokens]; rfl
  | string text => rw [tokens]; rfl
  | array items =>
      have opened : ReadState.step? (.beforeValue outer) .beginArray =
          some (.inNewArray outer) := rfl
      rw [tokens, foldlM_cons_of_step opened]
      cases items with
      | nil => rw [itemTokens]; rfl
      | cons item items =>
          have content := foldlM_itemTokens [] (item :: items) (List.cons_ne_nil _ _) outer
          obtain ⟨first, rest, shape, goesOn⟩ := exists_itemTokens_cons item items
          rw [shape, List.cons_append, List.foldlM_cons] at content ⊢
          rw [ReadState.step?_inNewArray goesOn]
          exact content
  | object members =>
      have opened : ReadState.step? (.beforeValue outer) .beginObject =
          some (.inNewObject outer) := rfl
      rw [tokens, foldlM_cons_of_step opened]
      cases members with
      | nil => rw [memberTokens]; rfl
      | cons member members =>
          have content :=
            foldlM_memberTokens [] (member :: members) (List.cons_ne_nil _ _) outer
          obtain ⟨rest, shape⟩ := exists_memberTokens_cons member members
          rw [shape] at content ⊢
          exact content

/-- The items of an array, up to its end. -/
theorem foldlM_itemTokens (before items : List Json) (nonempty : items ≠ [])
    (outer : List OpenContainer) :
    (itemTokens items ++ [Token.endArray]).foldlM ReadState.step?
        (.beforeValue (.array before :: outer)) =
      some (.afterValue (.array (before.reverse ++ items)) outer) := by
  cases items with
  | nil => exact (nonempty rfl).elim
  | cons item rest =>
      have read := foldlM_tokens item (.array before :: outer)
      cases rest with
      | nil =>
          rw [itemTokens, foldlM_append_of_run read, ← List.reverse_cons]
          rfl
      | cons next rest =>
          have others := foldlM_itemTokens (item :: before) (next :: rest)
            (List.cons_ne_nil _ _) outer
          have goesOn : ReadState.step? (.afterValue item (.array before :: outer)) .comma =
              some (.beforeValue (.array (item :: before) :: outer)) := rfl
          rw [itemTokens, List.append_assoc, foldlM_append_of_run read,
            List.cons_append, foldlM_cons_of_step goesOn, others,
            List.reverse_cons, List.append_assoc, List.singleton_append]

/-- The members of an object, up to its end. -/
theorem foldlM_memberTokens (before members : List (Text × Json)) (nonempty : members ≠ [])
    (outer : List OpenContainer) :
    (memberTokens members ++ [Token.endObject]).foldlM ReadState.step?
        (.beforeKey before outer) =
      some (.afterValue (.object (before.reverse ++ members)) outer) := by
  cases members with
  | nil => exact (nonempty rfl).elim
  | cons member rest =>
      obtain ⟨key, value⟩ := member
      have keyRead : ReadState.step? (.beforeKey before outer) (.string key) =
          some (.afterKey before key outer) := rfl
      have colonRead : ReadState.step? (.afterKey before key outer) .colon =
          some (.beforeValue (.object before key :: outer)) := rfl
      have read := foldlM_tokens value (.object before key :: outer)
      cases rest with
      | nil =>
          rw [memberTokens, List.cons_append, foldlM_cons_of_step keyRead,
            List.cons_append, foldlM_cons_of_step colonRead,
            foldlM_append_of_run read, ← List.reverse_cons]
          rfl
      | cons next rest =>
          have others := foldlM_memberTokens ((key, value) :: before) (next :: rest)
            (List.cons_ne_nil _ _) outer
          have goesOn : ReadState.step? (.afterValue value (.object before key :: outer))
              .comma = some (.beforeKey ((key, value) :: before) outer) := rfl
          rw [memberTokens, List.cons_append, foldlM_cons_of_step keyRead,
            List.cons_append, foldlM_cons_of_step colonRead, List.append_assoc,
            foldlM_append_of_run read, List.cons_append,
            foldlM_cons_of_step goesOn, others, List.reverse_cons,
            List.append_assoc, List.singleton_append]

end

theorem ofTokens?_tokens (value : Json) : ofTokens? value.tokens = some value := by
  rw [ofTokens?, foldlM_tokens]
  rfl

/-! ## Values whose tokens can be told apart -/

/-- Numbers are spelled as numbers, and no string or key has a surrogate that stands
alone. -/
inductive WellFormed : Json → Prop where
  | null : WellFormed .null
  | bool (value : Bool) : WellFormed (.bool value)
  | number {spelling : List Char} : IsNumeral spelling → WellFormed (.number spelling)
  | string (value : String) : WellFormed (.string (.ofString value))
  | array {items : List Json} :
      (∀ item ∈ items, WellFormed item) → WellFormed (.array items)
  | object {members : List (Text × Json)} :
      (∀ member ∈ members, ∃ key : String, member.1 = .ofString key) →
      (∀ member ∈ members, WellFormed member.2) → WellFormed (.object members)

theorem mem_itemTokens {items : List Json} {token : Token} (member : token ∈ itemTokens items) :
    token = .comma ∨ ∃ item ∈ items, token ∈ item.tokens := by
  induction items with
  | nil =>
      rw [itemTokens] at member
      cases member
  | cons item items induction =>
      cases items with
      | nil =>
          rw [itemTokens] at member
          exact Or.inr ⟨item, List.mem_cons_self, member⟩
      | cons next items =>
          rw [itemTokens, List.mem_append, List.mem_cons] at member
          rcases member with inItem | comma | later
          · exact Or.inr ⟨item, List.mem_cons_self, inItem⟩
          · exact Or.inl comma
          · apply (induction later).imp_right
            rintro ⟨other, present, inOther⟩
            exact ⟨other, List.mem_cons_of_mem item present, inOther⟩

theorem mem_memberTokens {members : List (Text × Json)} {token : Token}
    (inTokens : token ∈ memberTokens members) :
    token = .comma ∨ token = .colon ∨
      ∃ member ∈ members, token = .string member.1 ∨ token ∈ member.2.tokens := by
  induction members with
  | nil =>
      rw [memberTokens] at inTokens
      cases inTokens
  | cons first members induction =>
      obtain ⟨key, value⟩ := first
      cases members with
      | nil =>
          rw [memberTokens, List.mem_cons, List.mem_cons] at inTokens
          rcases inTokens with isKey | colon | inValue
          · exact Or.inr (Or.inr ⟨_, List.mem_cons_self, Or.inl isKey⟩)
          · exact Or.inr (Or.inl colon)
          · exact Or.inr (Or.inr ⟨_, List.mem_cons_self, Or.inr inValue⟩)
      | cons next members =>
          rw [memberTokens, List.mem_cons, List.mem_cons, List.mem_append,
            List.mem_cons] at inTokens
          rcases inTokens with isKey | colon | inValue | comma | later
          · exact Or.inr (Or.inr ⟨_, List.mem_cons_self, Or.inl isKey⟩)
          · exact Or.inr (Or.inl colon)
          · exact Or.inr (Or.inr ⟨_, List.mem_cons_self, Or.inr inValue⟩)
          · exact Or.inl comma
          · apply (induction later).imp_right
            apply Or.imp_right
            rintro ⟨member, present, inMember⟩
            exact ⟨member, List.mem_cons_of_mem _ present, inMember⟩

theorem WellFormed.of_mem_tokens {value : Json} (wellFormed : value.WellFormed)
    {token : Token} (member : token ∈ value.tokens) : token.WellFormed := by
  induction wellFormed with
  | null =>
      rw [tokens] at member
      rw [List.mem_singleton.mp member]
      trivial
  | bool value =>
      rw [tokens] at member
      rw [List.mem_singleton.mp member]
      trivial
  | number spells =>
      rw [tokens] at member
      rw [List.mem_singleton.mp member]
      exact spells
  | string value =>
      rw [tokens] at member
      rw [List.mem_singleton.mp member]
      exact ⟨value, rfl⟩
  | array items induction =>
      rw [tokens, List.mem_cons, List.mem_append, List.mem_singleton] at member
      rcases member with rfl | inItems | rfl
      · trivial
      · rcases mem_itemTokens inItems with rfl | ⟨item, present, inItem⟩
        · trivial
        · exact induction item present inItem
      · trivial
  | object keys values induction =>
      rw [tokens, List.mem_cons, List.mem_append, List.mem_singleton] at member
      rcases member with rfl | inMembers | rfl
      · trivial
      · rcases mem_memberTokens inMembers with
          rfl | rfl | ⟨member, present, rfl | inValue⟩
        · trivial
        · trivial
        · exact keys member present
        · exact induction member present inValue
      · trivial

/-! ## Numbers stand apart -/

section

variable {token : Token} {first tokens : List Token}

theorem isChain_cons_of_noNumber (noNumber : token.isNumber = false)
    (chain : tokens.IsChain Token.Apart) : (token :: tokens).IsChain Token.Apart :=
  List.isChain_cons.mpr ⟨fun _ _ => Or.inl noNumber, chain⟩

theorem isChain_append_of_noNumber (before : first.IsChain Token.Apart)
    (noNumber : token.isNumber = false) (after : (token :: tokens).IsChain Token.Apart) :
    (first ++ token :: tokens).IsChain Token.Apart := by
  refine List.isChain_append.mpr ⟨before, after, ?_⟩
  intro last _ next isNext
  obtain rfl := Option.some.inj isNext
  exact Or.inr noNumber

end

mutual

theorem isChain_tokens (value : Json) : value.tokens.IsChain Token.Apart := by
  cases value with
  | null => rw [tokens]; exact .singleton _
  | bool value => rw [tokens]; exact .singleton _
  | number spelling => rw [tokens]; exact .singleton _
  | string text => rw [tokens]; exact .singleton _
  | array items =>
      rw [tokens]
      apply isChain_cons_of_noNumber rfl
      exact isChain_append_of_noNumber (isChain_itemTokens items) rfl (.singleton _)
  | object members =>
      rw [tokens]
      apply isChain_cons_of_noNumber rfl
      exact isChain_append_of_noNumber (isChain_memberTokens members) rfl (.singleton _)

theorem isChain_itemTokens (items : List Json) : (itemTokens items).IsChain Token.Apart := by
  cases items with
  | nil => rw [itemTokens]; exact .nil
  | cons item rest =>
      have first := isChain_tokens item
      cases rest with
      | nil =>
          rw [itemTokens]
          exact first
      | cons next rest =>
          have others := isChain_itemTokens (next :: rest)
          rw [itemTokens]
          apply isChain_append_of_noNumber first rfl
          exact isChain_cons_of_noNumber rfl others

theorem isChain_memberTokens (members : List (Text × Json)) :
    (memberTokens members).IsChain Token.Apart := by
  cases members with
  | nil => rw [memberTokens]; exact .nil
  | cons member rest =>
      obtain ⟨key, value⟩ := member
      have first := isChain_tokens value
      cases rest with
      | nil =>
          rw [memberTokens]
          apply isChain_cons_of_noNumber rfl
          exact isChain_cons_of_noNumber rfl first
      | cons next rest =>
          have others := isChain_memberTokens (next :: rest)
          rw [memberTokens]
          apply isChain_cons_of_noNumber rfl
          apply isChain_cons_of_noNumber rfl
          apply isChain_append_of_noNumber first rfl
          exact isChain_cons_of_noNumber rfl others

end

/-! ## Texts -/

/-- A value is read from every text that spells it. -/
theorem parse?_of_spells {value : Json} {text : String} (spells : value.Spells text) :
    parse? text = some value := by
  have scanned := scan?_of_spaced spells value.isChain_tokens
  rw [parse?, scanned, Option.bind_some, ofTokens?_tokens]

theorem WellFormed.spells_compact {value : Json} (wellFormed : value.WellFormed) :
    value.Spells value.compact := by
  rw [Spells, compact, String.toList_ofList]
  exact spaced_flatMap_chars fun token member => wellFormed.of_mem_tokens member

theorem WellFormed.spells_indented {value : Json} (wellFormed : value.WellFormed) :
    value.Spells value.indented := by
  rw [Spells, indented, String.toList_ofList]
  exact spaced_layout 0 fun token member => wellFormed.of_mem_tokens member

end Json

end TrafficRelay
