import TrafficRelay.Filter
import TrafficRelay.Proofs.TableRun

/-!
# Runs of a filter

A run of a filter judges records one after another.  The judgements alone, in
their order, determine the slot of every session; the table of the filter always
shows the live part of these slots.  So the verdict of an answer is a function
of the judgements before it and of its time.
-/

namespace TrafficRelay

/-- A record with its verdict and the time it was judged. -/
structure Judgement where
  instant : Instant
  record : Record
  verdict : Verdict
  deriving DecidableEq, Repr

namespace Judgement

def IsRequestOf (session : SessionKey) (judgement : Judgement) : Prop :=
  judgement.record.session = session ∧ judgement.record.header.kind = .request

/-- Responses and replay reports are answers. -/
def IsAnswerOf (session : SessionKey) (judgement : Judgement) : Prop :=
  judgement.record.session = session ∧ judgement.record.header.kind.isAnswer = true

instance (session : SessionKey) (judgement : Judgement) :
    Decidable (judgement.IsRequestOf session) :=
  inferInstanceAs (Decidable (_ ∧ _))

instance (session : SessionKey) (judgement : Judgement) :
    Decidable (judgement.IsAnswerOf session) :=
  inferInstanceAs (Decidable (_ ∧ _))

/-- What a judgement does with the record of its session. -/
def action (judgement : Judgement) : TableAction :=
  match judgement.record.header.kind with
  | .request => .remember judgement.record.session judgement.verdict
  | .response | .replayReport => .redeem judgement.record.session

@[simp] theorem action_session (judgement : Judgement) :
    judgement.action.session = judgement.record.session := by
  unfold action
  split <;> rfl

theorem IsRequestOf.action_eq {session : SessionKey} {judgement : Judgement}
    (isRequest : judgement.IsRequestOf session) :
    judgement.action = .remember session judgement.verdict := by
  obtain ⟨rfl, kind⟩ := isRequest
  simp [action, kind]

theorem IsAnswerOf.action_eq {session : SessionKey} {judgement : Judgement}
    (isAnswer : judgement.IsAnswerOf session) :
    judgement.action = .redeem session := by
  obtain ⟨rfl, kind⟩ := isAnswer
  unfold action
  split
  · rename_i request
    rw [request] at kind
    cases kind
  · rfl
  · rfl

theorem isRequestOf_or_isAnswerOf (judgement : Judgement) :
    judgement.IsRequestOf judgement.record.session ∨
      judgement.IsAnswerOf judgement.record.session := by
  unfold IsRequestOf IsAnswerOf
  cases judgement.record.header.kind <;> simp [Kind.isAnswer]

theorem IsRequestOf.not_isAnswerOf {session other : SessionKey}
    {judgement : Judgement} (isRequest : judgement.IsRequestOf session) :
    ¬judgement.IsAnswerOf other := by
  intro isAnswer
  have kind := isAnswer.2
  rw [isRequest.2] at kind
  cases kind

end Judgement

/-- A request of the session has this verdict and this time, and no answer has
come since. -/
def Unanswered (session : SessionKey) (entry : VerdictEntry)
    (log : List Judgement) : Prop :=
  ∃ before request after, log = before ++ request :: after ∧
    request.IsRequestOf session ∧ request.instant = entry.since ∧
    request.verdict = entry.verdict ∧
    ∀ judgement ∈ after, ¬judgement.IsAnswerOf session

namespace Unanswered

variable {session : SessionKey} {entry : VerdictEntry} {log : List Judgement}
  {last : Judgement}

theorem of_isRequestOf (log : List Judgement)
    (isRequest : last.IsRequestOf session) :
    Unanswered session ⟨last.verdict, last.instant⟩ (log ++ [last]) :=
  ⟨log, last, [], rfl, isRequest, rfl, rfl, by simp⟩

theorem append (unanswered : Unanswered session entry log)
    (notAnswer : ¬last.IsAnswerOf session) :
    Unanswered session entry (log ++ [last]) := by
  obtain ⟨before, request, after, rfl, isRequest, since, verdict, noAnswer⟩ :=
    unanswered
  refine ⟨before, request, after ++ [last], by simp, isRequest, since, verdict, ?_⟩
  intro judgement member
  rcases List.mem_append.mp member with inAfter | isLast
  · exact noAnswer judgement inAfter
  · exact List.mem_singleton.mp isLast ▸ notAnswer

end Unanswered

namespace VerdictSlot

/-- What judgements make of the slot of a session, from its first content. -/
def fold (timeToLive : Duration) (session : SessionKey) (slot : VerdictSlot)
    (log : List Judgement) : VerdictSlot :=
  log.foldl (fun slot judgement =>
    if judgement.record.session = session then
      (act timeToLive judgement.instant slot judgement.action).2
    else slot) slot

variable {timeToLive : Duration} {session : SessionKey}

@[simp] theorem fold_nil (slot : VerdictSlot) :
    fold timeToLive session slot [] = slot := rfl

theorem fold_cons (slot : VerdictSlot) (judgement : Judgement)
    (log : List Judgement) :
    fold timeToLive session slot (judgement :: log) =
      fold timeToLive session
        (if judgement.record.session = session then
          (act timeToLive judgement.instant slot judgement.action).2
        else slot) log := rfl

theorem fold_append (slot : VerdictSlot) (first second : List Judgement) :
    fold timeToLive session slot (first ++ second) =
      fold timeToLive session (fold timeToLive session slot first) second :=
  List.foldl_append

theorem fold_answer (slot : VerdictSlot) {judgement : Judgement}
    (isAnswer : judgement.IsAnswerOf session) :
    fold timeToLive session slot [judgement] = none := by
  rw [fold_cons, if_pos isAnswer.1, isAnswer.action_eq, fold_nil]
  cases slot <;> rfl

theorem fold_request (slot : VerdictSlot) {judgement : Judgement}
    (isRequest : judgement.IsRequestOf session) :
    fold timeToLive session slot [judgement] =
      (remember timeToLive judgement.instant judgement.verdict slot).2 := by
  rw [fold_cons, if_pos isRequest.1, isRequest.action_eq, fold_nil]
  rfl

theorem fold_of_other (slot : VerdictSlot) {judgement : Judgement}
    (other : judgement.record.session ≠ session) :
    fold timeToLive session slot [judgement] = slot := by
  rw [fold_cons, if_neg other, fold_nil]

end VerdictSlot

/-- The verdict that a record is due after the judgements before it: a request
is judged by its method, an answer takes what the slot of its session yields. -/
def Filter.dueVerdict (whitelist : Whitelist) (timeToLive : Duration)
    (past : List Judgement) (now : Instant) (record : Record) : Verdict :=
  match record.header.kind with
  | .request => whitelist.judge record.body
  | .response | .replayReport =>
      (VerdictSlot.redeem timeToLive now
        (VerdictSlot.fold timeToLive record.session none past)).1.getD .allow

/-- Judging acts on the table as the judgement says. -/
theorem Filter.judge_filter (filter : Filter) (now : Instant) (record : Record) :
    (filter.judge now record).2 =
      { filter with
        table := (filter.table.act now
          (Judgement.mk now record (filter.judge now record).1).action).2 } := by
  cases kind : record.header.kind <;>
    simp [Filter.judge, Judgement.action, VerdictTable.act, kind]

theorem Filter.judge_verdict (filter : Filter) (now : Instant) (record : Record) :
    (filter.judge now record).1 =
      match record.header.kind with
      | .request => filter.whitelist.judge record.body
      | .response | .replayReport =>
          (filter.table.redeem now record.session).1.getD .allow := by
  cases kind : record.header.kind <;> simp [Filter.judge, kind]

/-- A filter and the reading of the clock. -/
structure TimedFilter where
  now : Instant
  filter : Filter
  deriving DecidableEq, Repr

namespace TimedFilter

/-- A filter with nothing on record, made at this instant. -/
def new (whitelist : Whitelist) (timeToLive sweepInterval : Duration)
    (start : Instant) : TimedFilter :=
  ⟨start, whitelist, .empty timeToLive sweepInterval start⟩

def step (state : TimedFilter) : ClockOp Record → Option Judgement × TimedFilter
  | .act record =>
      let (verdict, filter) := state.filter.judge state.now record
      (some ⟨state.now, record, verdict⟩, { state with filter })
  | .sweep instant =>
      (none, { state with
        filter := { state.filter with table := state.filter.table.sweep instant } })
  | .advance elapsed => (none, { state with now := state.now + elapsed })

/-- What becomes of a record that is judged now. -/
def judgement (state : TimedFilter) (record : Record) : Judgement :=
  ⟨state.now, record, (state.filter.judge state.now record).1⟩

theorem step_act (state : TimedFilter) (record : Record) :
    state.step (.act record) = (some (state.judgement record), { state with
      filter := { state.filter with
        table := (state.filter.table.act state.now
          (state.judgement record).action).2 } }) := by
  rw [judgement, ← Filter.judge_filter]
  rfl

/-- The judgements of a run. -/
def log (state : TimedFilter) : List (ClockOp Record) → List Judgement
  | [] => []
  | op :: ops => (state.step op).1.toList ++ (state.step op).2.log ops

/-- The state after a run. -/
def run (state : TimedFilter) : List (ClockOp Record) → TimedFilter
  | [] => state
  | op :: ops => (state.step op).2.run ops

@[simp] theorem step_now (state : TimedFilter) (op : ClockOp Record) :
    (state.step op).2.now = op.timeAfter state.now := by
  cases op <;> rfl

/-- A judgement is made in the state that the operations before it led to. -/
theorem log_eq_append_cons {state : TimedFilter} {ops : List (ClockOp Record)}
    {before after : List Judgement} {judgement : Judgement}
    (split : state.log ops = before ++ judgement :: after) :
    ∃ earlier record later, ops = earlier ++ .act record :: later ∧
      state.log earlier = before ∧
      judgement = (state.run earlier).judgement record := by
  induction ops generalizing state before with
  | nil => simp [log] at split
  | cons op ops induction =>
      rw [log] at split
      cases op with
      | act record =>
          cases before with
          | nil =>
              obtain ⟨same, -⟩ := List.cons.inj split
              exact ⟨[], record, ops, rfl, rfl, same.symm⟩
          | cons first before =>
              obtain ⟨same, others⟩ := List.cons.inj split
              obtain ⟨earlier, next, later, rfl, logged, judged⟩ := induction others
              refine ⟨.act record :: earlier, next, later, rfl, ?_, judged⟩
              rw [log, logged, ← same]
              rfl
      | sweep instant =>
          obtain ⟨earlier, next, later, rfl, logged, judged⟩ := induction split
          exact ⟨.sweep instant :: earlier, next, later, rfl, logged, judged⟩
      | advance elapsed =>
          obtain ⟨earlier, next, later, rfl, logged, judged⟩ := induction split
          exact ⟨.advance elapsed :: earlier, next, later, rfl, logged, judged⟩

/-- A state that judgements have led to from a filter with nothing on record. -/
structure Follows (whitelist : Whitelist) (timeToLive : Duration)
    (past : List Judgement) (state : TimedFilter) : Prop where
  sameWhitelist : state.filter.whitelist = whitelist
  sameTimeToLive : state.filter.table.timeToLive = timeToLive
  distinct : state.filter.table.Distinct
  sameLive : ∀ session, state.filter.table.live? state.now session =
    VerdictSlot.live timeToLive state.now
      (VerdictSlot.fold timeToLive session none past)

theorem follows_new (whitelist : Whitelist) (timeToLive sweepInterval : Duration)
    (start : Instant) :
    Follows whitelist timeToLive []
      (TimedFilter.new whitelist timeToLive sweepInterval start) :=
  ⟨rfl, rfl, VerdictTable.Distinct.empty _ _ _, fun _ => rfl⟩

namespace Follows

variable {whitelist : Whitelist} {timeToLive : Duration}
  {past : List Judgement} {state : TimedFilter}

theorem verdict_eq (follows : Follows whitelist timeToLive past state)
    (record : Record) :
    (state.filter.judge state.now record).1 =
      Filter.dueVerdict whitelist timeToLive past state.now record := by
  obtain ⟨sameWhitelist, sameTimeToLive, distinct, sameLive⟩ := follows
  have redeemed : (state.filter.table.redeem state.now record.session).1 =
      (VerdictSlot.redeem timeToLive state.now
        (VerdictSlot.fold timeToLive record.session none past)).1 := by
    have answer := VerdictTable.act_answer distinct state.now
      (.redeem record.session)
    rw [TableAction.session, sameLive, sameTimeToLive,
      VerdictSlot.act_live_answer] at answer
    exact TableAnswer.redeemed.inj answer
  rw [Filter.judge_verdict, Filter.dueVerdict, sameWhitelist, redeemed]

theorem act (follows : Follows whitelist timeToLive past state)
    (record : Record) :
    Follows whitelist timeToLive
      (past ++ (state.step (.act record)).1.toList)
      (state.step (.act record)).2 := by
  obtain ⟨sameWhitelist, sameTimeToLive, distinct, sameLive⟩ := follows
  rw [step_act]
  refine ⟨sameWhitelist, by simp [sameTimeToLive], distinct.act _ _, ?_⟩
  intro session
  simp only [Option.toList_some]
  rw [VerdictTable.live?_act distinct, VerdictSlot.fold_append,
    VerdictSlot.fold_cons, VerdictSlot.fold_nil,
    (state.judgement record).action_session]
  by_cases same : session = (state.judgement record).record.session
  · subst session
    rw [if_pos rfl, if_pos rfl, sameTimeToLive, sameLive]
    exact VerdictSlot.live_act_live _ _
  · rw [if_neg same, if_neg (Ne.symm same), sameLive]

theorem sweep (follows : Follows whitelist timeToLive past state)
    {instant : Instant} (instantPast : instant ≤ state.now) :
    Follows whitelist timeToLive past (state.step (.sweep instant)).2 := by
  obtain ⟨sameWhitelist, sameTimeToLive, distinct, sameLive⟩ := follows
  refine ⟨sameWhitelist, sameTimeToLive, distinct.sweep instant, ?_⟩
  intro session
  exact (VerdictTable.live?_sweep distinct instantPast session).trans
    (sameLive session)

theorem advance (follows : Follows whitelist timeToLive past state)
    (elapsed : Duration) :
    Follows whitelist timeToLive past (state.step (.advance elapsed)).2 := by
  obtain ⟨sameWhitelist, sameTimeToLive, distinct, sameLive⟩ := follows
  have ordered : state.now ≤ state.now + elapsed := Nat.le_add_right _ _
  refine ⟨sameWhitelist, sameTimeToLive, distinct, ?_⟩
  intro session
  have later := state.filter.table.live?_later ordered session
  rw [sameLive, sameTimeToLive, VerdictSlot.live_live ordered] at later
  exact later.symm

theorem step (follows : Follows whitelist timeToLive past state)
    {op : ClockOp Record}
    (opPast : ∀ instant, op = .sweep instant → instant ≤ state.now) :
    Follows whitelist timeToLive (past ++ (state.step op).1.toList)
      (state.step op).2 := by
  cases op with
  | act record => exact follows.act record
  | sweep instant =>
      simpa [TimedFilter.step] using follows.sweep (opPast instant rfl)
  | advance elapsed => simpa [TimedFilter.step] using follows.advance elapsed

theorem run (follows : Follows whitelist timeToLive past state)
    {ops : List (ClockOp Record)} (opsPast : ClockOp.SweepsPast state.now ops) :
    Follows whitelist timeToLive (past ++ state.log ops) (state.run ops) := by
  induction ops generalizing past state with
  | nil =>
      rw [log, List.append_nil]
      exact follows
  | cons op ops induction =>
      obtain ⟨opPast, restPast⟩ := opsPast
      rw [← state.step_now] at restPast
      rw [log, ← List.append_assoc]
      exact induction (follows.step opPast) restPast

/-- Every record of a run gets the verdict that it is due. -/
theorem log_verdict (follows : Follows whitelist timeToLive past state)
    {ops : List (ClockOp Record)} (opsPast : ClockOp.SweepsPast state.now ops)
    {before after : List Judgement} {judgement : Judgement}
    (split : state.log ops = before ++ judgement :: after) :
    judgement.verdict =
      Filter.dueVerdict whitelist timeToLive (past ++ before)
        judgement.instant judgement.record := by
  obtain ⟨earlier, record, later, rfl, rfl, rfl⟩ := log_eq_append_cons split
  exact (follows.run opsPast.of_append).verdict_eq record

end Follows

/-- Judgements follow one another under the clock. -/
theorem log_ordered (state : TimedFilter) (ops : List (ClockOp Record)) :
    (state.log ops).Pairwise (fun earlier later =>
        earlier.instant ≤ later.instant) ∧
      ∀ judgement ∈ state.log ops, state.now ≤ judgement.instant := by
  induction ops generalizing state with
  | nil => simp [log]
  | cons op ops induction =>
      obtain ⟨ordered, notBefore⟩ := induction (state.step op).2
      have advanced : ∀ judgement ∈ (state.step op).2.log ops,
          state.now ≤ judgement.instant := by
        intro judgement member
        have notBeforeStep := notBefore judgement member
        rw [step_now] at notBeforeStep
        exact Nat.le_trans (op.le_timeAfter state.now) notBeforeStep
      rw [log]
      cases op with
      | act record =>
          have notBeforeAct : ∀ judgement ∈ (state.step (.act record)).2.log ops,
              state.now ≤ judgement.instant := notBefore
          constructor
          · exact List.pairwise_cons.mpr ⟨notBeforeAct, ordered⟩
          · intro judgement member
            rcases List.mem_cons.mp member with rfl | later
            · exact Nat.le_refl _
            · exact advanced judgement later
      | sweep instant | advance elapsed => exact ⟨ordered, advanced⟩

end TimedFilter

end TrafficRelay
