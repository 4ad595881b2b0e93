import Mathlib.Data.List.Basic
import TrafficRelay.Proofs.Fields
import TrafficRelay.Whitelist

/-!
# Request methods

A body has a method exactly if it starts with a nonempty token and a space; where its
first line ends makes no difference.  A whitelist with something on it lets a body pass
exactly if the body starts with one of its methods and a space.
-/

namespace TrafficRelay

/-- The graphic characters that stand in no token. -/
def delimiters : Bytes := Bytes.ofString "\"(),/:;<=>?@[\\]\x7b\x7d"

/-- A nonempty token. -/
structure IsMethod (method : Bytes) : Prop where
  nonempty : method ≠ []
  graphic : ∀ byte ∈ method, Bytes.isGraphic byte = true
  undelimited : ∀ byte ∈ method, byte ∉ delimiters

/-- A body starts with a method and a space. -/
structure Opens (method body : Bytes) : Prop where
  isMethod : IsMethod method
  isPrefix : method ++ [Bytes.space] <+: body

/-- Token characters are the graphic ones that are no delimiters. -/
theorem isTokenByte_iff {byte : UInt8} :
    isTokenByte byte = true ↔ Bytes.isGraphic byte = true ∧ byte ∉ delimiters := by
  have each : ∀ value : Fin 256, isTokenByte (UInt8.ofNat value) = true ↔
      Bytes.isGraphic (UInt8.ofNat value) = true ∧ UInt8.ofNat value ∉ delimiters := by
    decide +kernel
  have here := each ⟨byte.toNat, byte.toNat_lt⟩
  rwa [UInt8.ofNat_toNat] at here

theorem isMethod_iff {method : Bytes} :
    IsMethod method ↔ method ≠ [] ∧ method.all isTokenByte = true := by
  constructor
  · rintro ⟨nonempty, graphic, undelimited⟩
    refine ⟨nonempty, List.all_eq_true.mpr ?_⟩
    intro byte member
    exact isTokenByte_iff.mpr ⟨graphic byte member, undelimited byte member⟩
  · rintro ⟨nonempty, tokens⟩
    have each := List.all_eq_true.mp tokens
    constructor
    · exact nonempty
    · intro byte member
      exact (isTokenByte_iff.mp (each byte member)).1
    · intro byte member
      exact (isTokenByte_iff.mp (each byte member)).2

instance (method : Bytes) : Decidable (IsMethod method) :=
  decidable_of_iff _ isMethod_iff.symm

namespace IsMethod

variable {method : Bytes} (isMethod : IsMethod method)

include isMethod

theorem space_not_mem : Bytes.space ∉ method := by
  intro member
  cases isMethod.graphic Bytes.space member

theorem newline_not_mem : Bytes.newline ∉ method := by
  intro member
  cases isMethod.graphic Bytes.newline member

end IsMethod

/-- The text before the first space, wherever its lines end, if that is a nonempty
token. -/
def leadingToken? (text : Bytes) : Option Bytes :=
  let token := text.takeWhile (· ≠ Bytes.space)
  if Bytes.space ∈ text ∧ token ≠ [] ∧ token.all isTokenByte = true then some token
  else none

theorem leadingToken?_eq_some_iff {text method : Bytes} :
    leadingToken? text = some method ↔ Opens method text := by
  constructor
  · intro found
    simp only [leadingToken?, Option.ite_none_right_eq_some, Option.some.injEq] at found
    obtain ⟨⟨present, nonempty, tokens⟩, rfl⟩ := found
    refine ⟨isMethod_iff.mpr ⟨nonempty, tokens⟩, ?_⟩
    obtain ⟨front, rest, rfl, absent⟩ := List.eq_append_cons_of_mem present
    rw [Bytes.takeWhile_piece absent, List.append_cons front Bytes.space rest]
    exact List.prefix_append _ rest
  · rintro ⟨isMethod, rest, rfl⟩
    obtain ⟨nonempty, tokens⟩ := isMethod_iff.mp isMethod
    have present : Bytes.space ∈ method ++ [Bytes.space] ++ rest := by simp
    have token : (method ++ [Bytes.space] ++ rest).takeWhile (· ≠ Bytes.space) = method := by
      rw [List.append_assoc]
      exact Bytes.takeWhile_piece isMethod.space_not_mem rest
    rw [leadingToken?, token, if_pos ⟨present, nonempty, tokens⟩]

/-- A method and the space after it are on the first line. -/
theorem opens_firstLine_iff {method body : Bytes} :
    Opens method (body.takeWhile (· ≠ Bytes.newline)) ↔ Opens method body := by
  constructor
  · rintro ⟨isMethod, isPrefix⟩
    exact ⟨isMethod, isPrefix.trans (List.takeWhile_prefix _)⟩
  · rintro ⟨isMethod, rest, rfl⟩
    have absent : Bytes.newline ∉ method ++ [Bytes.space] := by
      rw [List.mem_append, not_or]
      exact ⟨isMethod.newline_not_mem, by decide⟩
    rw [List.takeWhile_append_of_pos (Bytes.ne_newline_of_mem absent)]
    exact ⟨isMethod, List.prefix_append _ _⟩

theorem methodOf?_eq_some_iff {body method : Bytes} :
    methodOf? body = some method ↔ Opens method body :=
  leadingToken?_eq_some_iff.trans opens_firstLine_iff

/-- Looking for the first space beyond the first line finds the same method. -/
theorem methodOf?_eq_leadingToken? (body : Bytes) : methodOf? body = leadingToken? body := by
  apply Option.ext
  intro method
  exact methodOf?_eq_some_iff.trans leadingToken?_eq_some_iff.symm

namespace Opens

variable {method other body : Bytes}

theorem unique (opens : Opens method body) (others : Opens other body) : method = other := by
  have here := methodOf?_eq_some_iff.mpr opens
  rw [methodOf?_eq_some_iff.mpr others] at here
  exact (Option.some.inj here).symm

theorem append (opens : Opens method body) (more : Bytes) : Opens method (body ++ more) :=
  ⟨opens.isMethod, opens.isPrefix.trans (List.prefix_append body more)⟩

end Opens

theorem Verdict.eq_of_allow_iff {verdict other : Verdict}
    (same : verdict = .allow ↔ other = .allow) : verdict = other := by
  cases verdict <;> cases other <;> simp_all

namespace Whitelist

variable {whitelist : Whitelist} {body : Bytes}

theorem judge_of_nil (empty : whitelist.methods = []) : whitelist.judge body = .allow := by
  rw [judge, isEmpty, empty]
  rfl

theorem judge_eq_allow_iff_of_ne_nil (nonempty : whitelist.methods ≠ []) :
    whitelist.judge body = .allow ↔ ∃ method ∈ whitelist.methods, Opens method body := by
  have present : whitelist.isEmpty = false := List.isEmpty_eq_false_iff.mpr nonempty
  rw [judge, present]
  cases found : methodOf? body with
  | none =>
      constructor
      · intro allowed
        cases allowed
      · rintro ⟨method, -, opens⟩
        rw [methodOf?_eq_some_iff.mpr opens] at found
        cases found
  | some method =>
      have opens := methodOf?_eq_some_iff.mp found
      constructor
      · intro allowed
        refine ⟨method, ?_, opens⟩
        by_contra absent
        have dropped : Verdict.ofAllowed (whitelist.methods.contains method) = .drop := by
          simp [Verdict.ofAllowed, absent]
        cases dropped.symm.trans allowed
      · rintro ⟨other, member, others⟩
        obtain rfl := opens.unique others
        simp [Verdict.ofAllowed, member]

theorem judge_eq_allow_iff :
    whitelist.judge body = .allow ↔
      whitelist.methods = [] ∨ ∃ method ∈ whitelist.methods, Opens method body := by
  by_cases empty : whitelist.methods = []
  · exact iff_of_true (judge_of_nil empty) (Or.inl empty)
  · rw [judge_eq_allow_iff_of_ne_nil empty, or_iff_right empty]

/-- The order of the methods and how often each is on the list make no difference. -/
theorem judge_congr {other : Whitelist}
    (same : ∀ method, method ∈ other.methods ↔ method ∈ whitelist.methods) :
    other.judge body = whitelist.judge body := by
  apply Verdict.eq_of_allow_iff
  have empty : other.methods = [] ↔ whitelist.methods = [] := by
    simp only [List.eq_nil_iff_forall_not_mem, same]
  simp only [judge_eq_allow_iff, empty, same]

/-- A longer list lets pass what a shorter one does, unless the shorter one is empty. -/
theorem judge_of_subset {larger : Whitelist} (nonempty : whitelist.methods ≠ [])
    (subset : whitelist.methods ⊆ larger.methods) (allowed : whitelist.judge body = .allow) :
    larger.judge body = .allow := by
  obtain ⟨method, member, opens⟩ := (judge_eq_allow_iff_of_ne_nil nonempty).mp allowed
  exact judge_eq_allow_iff.mpr (Or.inr ⟨method, subset member, opens⟩)

/-- What is no nonempty token makes no difference on a list with something else on it. -/
theorem judge_cons_of_not_isMethod {method : Bytes} (invalid : ¬IsMethod method)
    (nonempty : whitelist.methods ≠ []) :
    judge ⟨method :: whitelist.methods⟩ body = whitelist.judge body := by
  apply Verdict.eq_of_allow_iff
  have absent : ¬Opens method body := fun opens => invalid opens.isMethod
  calc judge ⟨method :: whitelist.methods⟩ body = .allow
      ↔ ∃ other ∈ method :: whitelist.methods, Opens other body :=
        judge_eq_allow_iff_of_ne_nil (List.cons_ne_nil _ _)
    _ ↔ ∃ other ∈ whitelist.methods, Opens other body := by
        rw [List.exists_mem_cons_iff, or_iff_right absent]
    _ ↔ whitelist.judge body = .allow := (judge_eq_allow_iff_of_ne_nil nonempty).symm

theorem judge_singleton_of_not_isMethod {method : Bytes} (invalid : ¬IsMethod method) :
    judge ⟨[method]⟩ body = .drop := by
  cases verdict : judge ⟨[method]⟩ body with
  | drop => rfl
  | allow =>
      obtain ⟨other, member, opens⟩ :=
        (judge_eq_allow_iff_of_ne_nil (List.cons_ne_nil _ _)).mp verdict
      obtain rfl := List.mem_singleton.mp member
      exact (invalid opens.isMethod).elim

end Whitelist

/-- A body passes a whitelist exactly if nothing is on the list, or the body starts with
a nonempty token that is on it and a space.  This token is the only one that the body
starts with; neither the rest of the body, nor the end of its first line, nor the order
of the list has a part in it. -/
theorem Whitelist.judge_allows_exactly (whitelist : Whitelist) (body : Bytes) :
    (whitelist.judge body = .allow ↔
      whitelist.methods = [] ∨ ∃ method ∈ whitelist.methods, Opens method body) ∧
    (∀ method, methodOf? body = some method ↔ Opens method body) ∧
    (∀ method other, Opens method body → Opens other body → method = other) ∧
    methodOf? body = leadingToken? body ∧
    (∀ method more, methodOf? body = some method → methodOf? (body ++ more) = some method) ∧
    (∀ other : Whitelist, (∀ method, method ∈ other.methods ↔ method ∈ whitelist.methods) →
      other.judge body = whitelist.judge body) ∧
    (∀ larger : Whitelist, whitelist.methods ≠ [] → whitelist.methods ⊆ larger.methods →
      whitelist.judge body = .allow → larger.judge body = .allow) ∧
    ∀ method, ¬IsMethod method →
      methodOf? body ≠ some method ∧ Whitelist.judge ⟨[method]⟩ body = .drop ∧
      (whitelist.methods ≠ [] →
        Whitelist.judge ⟨method :: whitelist.methods⟩ body = whitelist.judge body) := by
  refine ⟨judge_eq_allow_iff, fun method => methodOf?_eq_some_iff, ?_,
    methodOf?_eq_leadingToken? body, ?_, ?_, ?_, ?_⟩
  · intro method other opens others
    exact opens.unique others
  · intro method more found
    exact methodOf?_eq_some_iff.mpr ((methodOf?_eq_some_iff.mp found).append more)
  · intro other same
    exact judge_congr same
  · intro larger nonempty subset allowed
    exact judge_of_subset nonempty subset allowed
  · intro method invalid
    refine ⟨?_, judge_singleton_of_not_isMethod invalid, judge_cons_of_not_isMethod invalid⟩
    intro found
    exact invalid (methodOf?_eq_some_iff.mp found).isMethod

/-- `GET` is on the list after the empty string and `G T`.  It is found in front of a
longer body too, and by a list with another method in front. -/
theorem Whitelist.judge_allows_exactly_amid_invalid :
    let get : Bytes := [71, 69, 84]
    let put : Bytes := [80, 85, 84]
    let spaced : Bytes := [71, 32, 84]
    let body : Bytes := [71, 69, 84, 32, 47, 10, 71, 32, 84]
    let whitelist : Whitelist := ⟨[[], spaced, get]⟩
    ¬IsMethod spaced ∧ whitelist.judge body = .allow ∧
      methodOf? (body ++ body) = some get ∧
      Whitelist.judge ⟨[get, [], get, spaced]⟩ body = .allow ∧
      Whitelist.judge ⟨put :: whitelist.methods⟩ body = .allow ∧
      Whitelist.judge ⟨[spaced]⟩ body = .drop := by
  intro get put spaced body whitelist
  have invalid : ¬IsMethod spaced := by decide +kernel
  have found : methodOf? body = some get := by decide +kernel
  obtain ⟨exact, opens, -, -, extended, reordered, longer, mismatched⟩ :=
    Whitelist.judge_allows_exactly whitelist body
  have allowed := exact.mpr (Or.inr ⟨get, by decide, (opens get).mp found⟩)
  have same := reordered ⟨[get, [], get, spaced]⟩ fun method => by grind
  exact ⟨invalid, allowed, extended get body found, same.trans allowed,
    longer ⟨put :: whitelist.methods⟩ (List.cons_ne_nil _ _) (List.subset_cons_self _ _)
      allowed,
    (mismatched spaced invalid).2.1⟩

end TrafficRelay
