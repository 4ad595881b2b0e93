import TrafficRelay.Proofs.AnswerVerdict
import TrafficRelay.Proofs.Delivery
import TrafficRelay.Proofs.DroppedAnswers

/-!
# Examined frames

While the clock stands still nothing on record expires, so a filter has on record just
what the judgements so far have made of the slot of each session.  Where every session
keeps to the frames of one reader, its slot and its verdicts therefore depend on the
frames of this reader and on nothing that other readers have taken before or between.
-/

namespace TrafficRelay

/-- The verdict on a frame; none on a frame that is no record. -/
def Decision.verdict? : Decision → Option Verdict
  | .malformed _ => none
  | .filtered => some .drop
  | .routed _ => some .allow

/-- A frame with the reader that took it and the verdict on it. -/
structure Examined where
  reader : Nat
  frame : Bytes
  verdict? : Option Verdict
  deriving DecidableEq, Repr

namespace Examined

def taken (examined : Examined) : Nat × Bytes := (examined.reader, examined.frame)

/-- The judgement of a record; none of a frame that is no record. -/
def judgement? (now : Instant) (examined : Examined) : Option Judgement :=
  match Record.decode examined.frame with
  | .error _ => none
  | .ok record => examined.verdict?.map fun verdict => ⟨now, record, verdict⟩

theorem decode_of_judgement? {now : Instant} {examined : Examined} {judgement : Judgement}
    (judged : examined.judgement? now = some judgement) :
    Record.decode examined.frame = .ok judgement.record := by
  unfold judgement? at judged
  split at judged
  · cases judged
  · rename_i record decoded
    obtain ⟨verdict, -, rfl⟩ := Option.map_eq_some_iff.mp judged
    exact decoded

end Examined

def Handling.examined (handling : Handling) : Examined :=
  ⟨handling.reader, handling.frame, handling.decision.verdict?⟩

/-- The frames that have been taken, in the order in which they were examined. -/
def examinations (happened : List Occurrence) : List Examined :=
  (happened.filterMap Occurrence.handling?).map Handling.examined

/-- Every session has a reader, and its records are taken by this one. -/
def AtHome (home : SessionKey → Nat) (taken : List (Nat × Bytes)) : Prop :=
  ∀ entry ∈ taken, ∀ record, Record.decode entry.2 = .ok record →
    home record.session = entry.1

theorem AtHome.of_alike {home : SessionKey → Nat} {taken other : List (Nat × Bytes)}
    (atHome : AtHome home taken)
    (alike : AlikeBy Prod.fst taken other) : AtHome home other :=
  fun entry member => atHome entry (alike.perm.mem_iff.mpr member)

namespace VerdictSlot

variable {timeToLive : Duration} {now : Instant}

/-- At the instant at which an entry was made it has not expired. -/
theorem live_eq_self {slot : VerdictSlot} (positive : 0 < timeToLive)
    (fresh : ∀ entry, slot = some entry → entry.since = now) :
    live timeToLive now slot = slot := by
  cases slot with
  | none => rfl
  | some entry =>
      apply live_some_of_young
      rw [fresh entry rfl, Nat.sub_self]
      exact positive

/-- Nothing but the frames of the reader of a session has a part in its slot. -/
theorem fold_of_home {home : SessionKey → Nat} {examined : List Examined}
    (atHome : AtHome home (examined.map Examined.taken)) (session : SessionKey)
    (slot : VerdictSlot) :
    fold timeToLive session slot (examined.filterMap (Examined.judgement? now)) =
      fold timeToLive session slot
        ((examined.filter fun entry => entry.reader = home session).filterMap
          (Examined.judgement? now)) := by
  induction examined generalizing slot with
  | nil => rfl
  | cons first rest induction =>
      obtain ⟨here, others⟩ := List.forall_mem_cons.mp atHome
      have later := induction others
      by_cases own : first.reader = home session
      · have kept : (first :: rest).filter (fun entry => entry.reader = home session) =
            first :: rest.filter fun entry => entry.reader = home session :=
          List.filter_cons_of_pos (decide_eq_true own)
        rw [kept, List.filterMap_cons, List.filterMap_cons]
        cases first.judgement? now with
        | none => exact later slot
        | some judgement => exact later _
      · have skipped : (first :: rest).filter (fun entry => entry.reader = home session) =
            rest.filter fun entry => entry.reader = home session :=
          List.filter_cons_of_neg (by simpa using own)
        rw [skipped, List.filterMap_cons]
        cases judged : first.judgement? now with
        | none => exact later slot
        | some judgement =>
            -- A record of the session would have been taken by the reader of the session.
            have foreign : judgement.record.session ≠ session := by
              rintro rfl
              exact own (here _ (Examined.decode_of_judgement? judged)).symm
            simp only [fold_cons, if_neg foreign]
            exact later slot

end VerdictSlot

namespace Filter

/-- The verdict that a frame is due after the judgements before it, if it is a record. -/
def dueVerdict? (whitelist : Whitelist) (timeToLive : Duration) (past : List Judgement)
    (now : Instant) (frame : Bytes) : Option Verdict :=
  match Record.decode frame with
  | .error _ => none
  | .ok record => some (dueVerdict whitelist timeToLive past now record)

/-- Frames that are judged one after another, all at one instant and each after what has
been judged before. -/
def examine (whitelist : Whitelist) (timeToLive : Duration) (now : Instant) :
    List Judgement → List (Nat × Bytes) → List Examined
  | _, [] => []
  | past, (reader, frame) :: rest =>
      let first : Examined := ⟨reader, frame, dueVerdict? whitelist timeToLive past now frame⟩
      first :: examine whitelist timeToLive now (past ++ (first.judgement? now).toList) rest

variable {whitelist : Whitelist} {timeToLive : Duration} {now : Instant}
  {home : SessionKey → Nat} {reader : Nat}

/-- The judgements before a frame of a reader matter as far as they are about its sessions. -/
theorem dueVerdict?_congr {past other : List Judgement} {frame : Bytes}
    (here : ∀ record, Record.decode frame = .ok record → home record.session = reader)
    (alike : ∀ session, home session = reader →
      VerdictSlot.fold timeToLive session none past =
        VerdictSlot.fold timeToLive session none other) :
    dueVerdict? whitelist timeToLive past now frame =
      dueVerdict? whitelist timeToLive other now frame := by
  unfold dueVerdict?
  split
  · rfl
  · rename_i record decoded
    rw [dueVerdict, dueVerdict, alike record.session (here record decoded)]

/-- Each reader finds the same verdicts as if it were alone. -/
theorem filter_examine {past other : List Judgement} {taken : List (Nat × Bytes)}
    (atHome : AtHome home taken)
    (alike : ∀ session, home session = reader →
      VerdictSlot.fold timeToLive session none past =
        VerdictSlot.fold timeToLive session none other) :
    (examine whitelist timeToLive now past taken).filter (fun entry => entry.reader = reader) =
      examine whitelist timeToLive now other (taken.filter fun entry => entry.1 = reader) := by
  induction taken generalizing past other with
  | nil => rfl
  | cons first rest induction =>
      obtain ⟨place, frame⟩ := first
      obtain ⟨here, others⟩ := List.forall_mem_cons.mp atHome
      by_cases own : place = reader
      · subst place
        have same : dueVerdict? whitelist timeToLive past now frame =
            dueVerdict? whitelist timeToLive other now frame := dueVerdict?_congr here alike
        -- The same verdict makes the same judgement, so the slots remain alike.
        simp only [examine, decide_true, List.filter_cons_of_pos, same]
        refine congrArg (List.cons _) (induction others ?_)
        intro session settled
        rw [VerdictSlot.fold_append, VerdictSlot.fold_append, alike session settled]
      · simp only [examine, own, decide_false, Bool.false_eq_true, not_false_eq_true,
          List.filter_cons_of_neg]
        refine induction others ?_
        intro session settled
        rw [VerdictSlot.fold_append, ← alike session settled]
        generalize judged : Examined.judgement? now _ = judgement?
        cases judgement? with
        | none => rfl
        | some judgement =>
            -- Another reader's record leaves the slots of this reader's sessions as they are.
            refine VerdictSlot.fold_of_other _ ?_
            rintro rfl
            exact own ((here _ (Examined.decode_of_judgement? judged)).symm.trans settled)

/-- In whatever order the frames of different readers are judged, each reader finds the
same verdicts. -/
theorem examine_alike {past : List Judgement} {taken other : List (Nat × Bytes)}
    (atHome : AtHome home taken) (alike : AlikeBy Prod.fst taken other) :
    AlikeBy Examined.reader (examine whitelist timeToLive now past taken)
      (examine whitelist timeToLive now past other) := by
  intro reader
  rw [filter_examine atHome fun _ _ => rfl,
    filter_examine (atHome.of_alike alike) fun _ _ => rfl, alike]

end Filter

/-- What judgements have been made of, all at one instant, is what a filter has on
record. -/
structure Filter.Recalls (whitelist : Whitelist) (timeToLive : Duration) (now : Instant)
    (past : List Judgement) (filter : Filter) : Prop where
  follows : TimedFilter.Follows whitelist timeToLive past ⟨now, filter⟩
  backed : filter.table.Backed past
  instants : ∀ judgement ∈ past, judgement.instant = now

namespace Filter.Recalls

variable {whitelist : Whitelist} {timeToLive : Duration} {now : Instant}
  {past : List Judgement} {filter : Filter}

/-- A filter with nothing on record, whenever it was made. -/
theorem of_empty (whitelist : Whitelist) (timeToLive sweepInterval : Duration)
    (created now : Instant) :
    Recalls whitelist timeToLive now []
      ⟨whitelist, .empty timeToLive sweepInterval created⟩ where
  follows := ⟨rfl, rfl, VerdictTable.Distinct.empty _ _ _, fun _ => rfl⟩
  backed := nofun
  instants := nofun

theorem judge (recalls : Recalls whitelist timeToLive now past filter) {record : Record}
    {verdict : Verdict} {next : Filter} (judged : filter.judge now record = (verdict, next)) :
    dueVerdict whitelist timeToLive past now record = verdict ∧
      Recalls whitelist timeToLive now (past ++ [⟨now, record, verdict⟩]) next := by
  have due := recalls.follows.verdict_eq record
  have follows := recalls.follows.act record
  have backed := recalls.backed.act ⟨now, record, verdict⟩
  have table := filter.judge_filter now record
  simp only [TimedFilter.step, judged] at due follows table
  refine ⟨due.symm, follows, ?_, ?_⟩
  · rw [table]
    exact backed
  · intro judgement member
    rcases List.mem_append.mp member with earlier | last
    · exact recalls.instants judgement earlier
    · rw [List.mem_singleton.mp last]

/-- While the clock stands still, the table has the slot of every session on record. -/
theorem get?_eq (recalls : Recalls whitelist timeToLive now past filter)
    (positive : 0 < timeToLive) (session : SessionKey) :
    filter.table.get? session = VerdictSlot.fold timeToLive session none past := by
  have fresh {entry : VerdictEntry} (unanswered : Unanswered session entry past) :
      entry.since = now := by
    obtain ⟨before, request, after, rfl, -, since, -⟩ := unanswered
    rw [← since]
    exact recalls.instants request (List.mem_append_right _ List.mem_cons_self)
  calc filter.table.get? session
      = VerdictSlot.live timeToLive now (filter.table.get? session) := by
        refine (VerdictSlot.live_eq_self positive fun entry found => ?_).symm
        exact fresh (recalls.backed _ _ (VerdictTable.mem_entries_of_get? found))
    _ = filter.table.live? now session := by
        rw [VerdictTable.live?, recalls.follows.sameTimeToLive]
    _ = VerdictSlot.live timeToLive now (VerdictSlot.fold timeToLive session none past) :=
        recalls.follows.sameLive session
    _ = VerdictSlot.fold timeToLive session none past :=
        VerdictSlot.live_eq_self positive fun entry found => fresh (VerdictSlot.fold_eq_some found)

/-- A record is given the verdict that it is due. -/
theorem handle (recalls : Recalls whitelist timeToLive now past filter) {handling : Handling}
    {record : Record} {verdict : Verdict} {next : Filter}
    (decoded : Record.decode handling.frame = .ok record)
    (judged : filter.judge now record = (verdict, next))
    (given : handling.decision.verdict? = some verdict) :
    handling.examined.verdict? =
        dueVerdict? whitelist timeToLive past now handling.examined.frame ∧
      Recalls whitelist timeToLive now
        (past ++ (handling.examined.judgement? now).toList) next := by
  obtain ⟨due, recalls⟩ := recalls.judge judged
  simp only [Handling.examined, Examined.judgement?, dueVerdict?, decoded, given, due]
  exact ⟨trivial, recalls⟩

/-- A frame that has been given the verdict it is due, before others that have. -/
theorem examine_cons {first : Examined} {rest : List Examined}
    (due : first.verdict? = dueVerdict? whitelist timeToLive past now first.frame)
    (later : rest = examine whitelist timeToLive now (past ++ (first.judgement? now).toList)
        (rest.map Examined.taken) ∧
      Recalls whitelist timeToLive now
        (past ++ (first.judgement? now).toList ++ rest.filterMap (Examined.judgement? now))
        filter) :
    first :: rest =
        examine whitelist timeToLive now past ((first :: rest).map Examined.taken) ∧
      Recalls whitelist timeToLive now
        (past ++ (first :: rest).filterMap (Examined.judgement? now)) filter := by
  obtain ⟨others, recalls⟩ := later
  have same : Examined.mk first.reader first.frame
      (dueVerdict? whitelist timeToLive past now first.frame) = first := by rw [← due]
  constructor
  · simp only [List.map_cons, Examined.taken, examine, same]
    exact congrArg (List.cons first) others
  · cases judged : first.judgement? now <;>
      simpa [List.filterMap_cons, judged] using recalls

end Filter.Recalls

namespace VerdictTable

theorem get?_eq_some_iff {table : VerdictTable} (distinct : table.Distinct)
    {session : SessionKey} {entry : VerdictEntry} :
    table.get? session = some entry ↔ (session, entry) ∈ table.entries := by
  refine ⟨mem_entries_of_get?, fun member => ?_⟩
  obtain ⟨before, after, split⟩ := List.append_of_mem member
  unfold Distinct at distinct
  rw [split, List.map_append] at distinct
  refine List.lookup_eq_some_iff.mpr ⟨before, after, split, ?_⟩
  intro other earlier
  have different : other.1 ≠ session :=
    (List.nodup_append.mp distinct).2.2 _ (List.mem_map_of_mem earlier) _ List.mem_cons_self
  simpa using different.symm

/-- Tables that have the same on record for every session differ in the order of their
entries at most. -/
theorem Distinct.entries_perm {table other : VerdictTable} (distinct : table.Distinct)
    (otherDistinct : other.Distinct)
    (same : ∀ session, table.get? session = other.get? session) :
    table.entries.Perm other.entries := by
  refine (List.perm_ext_iff_of_nodup (.of_map _ distinct) (.of_map _ otherDistinct)).mpr ?_
  rintro ⟨session, entry⟩
  rw [← get?_eq_some_iff distinct, ← get?_eq_some_iff otherDistinct, same]

end VerdictTable

namespace Stages

variable {outputs : Nat} {stages last : Stages} {handlings : List Handling}
  {whitelist : Whitelist} {timeToLive : Duration} {now : Instant} {past : List Judgement}

/-- Frames that are handled while the clock stands still are judged one after another, and
the filter has on record what the judgements have been made of. -/
theorem Processes.examined (processes : stages.Processes outputs handlings last)
    (recalls : stages.filter.Recalls whitelist timeToLive now past)
    (still : ∀ handling ∈ handlings, handling.instant = now) :
    let examined := handlings.map Handling.examined
    examined =
        Filter.examine whitelist timeToLive now past (examined.map Examined.taken) ∧
      last.filter.Recalls whitelist timeToLive now
        (past ++ examined.filterMap (Examined.judgement? now)) := by
  induction processes generalizing past with
  | done stages => exact ⟨rfl, by simpa using recalls⟩
  | @malformed stages last handling rest error decoded decision others induction =>
      obtain ⟨here, later⟩ := List.forall_mem_cons.mp still
      have unjudged : handling.examined.judgement? now = none := by
        simp only [Handling.examined, Examined.judgement?, decoded]
      refine Filter.Recalls.examine_cons ?_ ?_
      · simp only [Handling.examined, decision, Decision.verdict?, Filter.dueVerdict?, decoded]
      · rw [unjudged]
        exact induction (by simpa using recalls) later
  | filtered decoded judged decision others induction =>
      obtain ⟨here, later⟩ := List.forall_mem_cons.mp still
      rw [here] at judged
      obtain ⟨due, next⟩ := recalls.handle decoded judged (by rw [decision]; rfl)
      exact Filter.Recalls.examine_cons due (induction next later)
  | routed decoded judged routing decision others induction =>
      obtain ⟨here, later⟩ := List.forall_mem_cons.mp still
      rw [here] at judged
      obtain ⟨due, next⟩ := recalls.handle decoded judged (by rw [decision]; rfl)
      exact Filter.Recalls.examine_cons due (induction next later)

section

variable {otherLast : Stages} {others : List Handling} {home : SessionKey → Nat}
  (processes : stages.Processes outputs handlings last)
  (otherProcesses : stages.Processes outputs others otherLast)
  (recalls : stages.filter.Recalls whitelist timeToLive now past)
  (still : ∀ handling ∈ handlings, handling.instant = now)
  (otherStill : ∀ handling ∈ others, handling.instant = now)
  (atHome : AtHome home ((handlings.map Handling.examined).map Examined.taken))
  (alike : AlikeBy Prod.fst ((handlings.map Handling.examined).map Examined.taken)
    ((others.map Handling.examined).map Examined.taken))

include processes otherProcesses recalls still otherStill atHome alike

/-- Readers that take the same frames in another order of their turns find the same
verdicts. -/
theorem Processes.examined_alike :
    AlikeBy Examined.reader (handlings.map Handling.examined) (others.map Handling.examined) := by
  rw [(processes.examined recalls still).1, (otherProcesses.examined recalls otherStill).1]
  exact Filter.examine_alike atHome alike

/-- In the end the filter has the same verdicts on record. -/
theorem Processes.entries_perm (positive : 0 < timeToLive) :
    last.filter.table.entries.Perm otherLast.filter.table.entries := by
  have examined := processes.examined_alike otherProcesses recalls still otherStill atHome alike
  obtain ⟨-, final⟩ := processes.examined recalls still
  obtain ⟨-, otherFinal⟩ := otherProcesses.examined recalls otherStill
  refine final.follows.distinct.entries_perm otherFinal.follows.distinct ?_
  intro session
  rw [final.get?_eq positive, otherFinal.get?_eq positive, VerdictSlot.fold_append,
    VerdictSlot.fold_append, VerdictSlot.fold_of_home atHome, examined,
    VerdictSlot.fold_of_home (atHome.of_alike alike)]

end

end Stages

end TrafficRelay
