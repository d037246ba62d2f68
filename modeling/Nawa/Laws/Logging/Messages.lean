import Nawa.Laws.Logging.Instances

/-!
# Laws of the messages

What has been set last before locking is in force. A message does not go where the stream has
been set to: its line is written to `cerr`, and only what stands before it in the extended format
to the stream. So all is well exactly when whatever is written is written while `cerr` is the
stream (`logsToSelected_iff`).
-/

namespace Nawa.Log

open Lib.Transition (Run)

variable {α : Type}

/-! ## What is in force -/

def Call.locks : Call → Bool
  | .lockStream => true
  | _ => false

/-- What the last call before locking has chosen, or else what was chosen at the beginning. -/
def lastChosen (choice : Call → Option α) (start : α) (locked : Bool) (calls : List Call) : α :=
  if locked then start
  else ((calls.takeWhile fun c => !c.locks).reverse.findSome? choice).getD start

/-- The stream or the file that a call selects. -/
def Call.sink : Call → Option (Option Sink)
  | .setStream os => some (some (.stream os))
  | .setOutfile filename true => some (some (.file filename))
  | _ => none

def Call.level : Call → Option Level
  | .setOutputLevel level => some level
  | _ => none

def Call.format : Call → Option Bool
  | .setExtendedFormat useExtendedFormat => some useExtendedFormat
  | _ => none

namespace State

def selected (s : State) (before : List Call) : Option Sink :=
  lastChosen Call.sink s.target s.locked before

def levelAfter (s : State) (before : List Call) : Level :=
  lastChosen Call.level s.outputLevel s.locked before

def formatAfter (s : State) (before : List Call) : Bool :=
  lastChosen Call.format s.extendedFormat s.locked before

/-- A level with which messages are written. -/
def Passes (s : State) (before : List Call) (level : Level) : Prop :=
  level ≠ .off ∧ s.levelAfter before ≠ .off ∧ level ≤ s.levelAfter before

instance (s : State) (before : List Call) (level : Level) : Decidable (s.Passes before level) :=
  inferInstanceAs (Decidable (_ ∧ _))

/-- The logger of a call and its line, if the call writes one after other calls. -/
def line (s : State) (before : List Call) : Call → Option Bytes
  | .write this msg level moment =>
    match s.objects.lookup this with
    | none => none
    | some data =>
      if s.Passes before (level.getD data.defaultLevel) then
        some ((if s.formatAfter before then s.extendedPrefix moment else []) ++
          Shared.message data msg)
      else none
  | _ => none

/-- What calls are to send to a sink: their lines, while the sink is selected. -/
def expected (s : State) (k : Sink) : List Call → List Call → Bytes
  | _, [] => []
  | before, c :: after =>
    (if s.selected before = some k then (s.line before c).getD [] else []) ++
      s.expected k (before ++ [c]) after

end State

/-- What is asked for. -/
structure LogsToSelected (s : State) (calls : List Call) (t : State) : Prop where
  contents : ∀ k, t.contents k = s.contents k ++ s.expected k [] calls
  locked : ∀ before after u, calls = before ++ after →
    Run State.step (fun _ _ => True) s (before.map .call) u →
      s.isLocked = true ∨ Call.lockStream ∈ before →
        t.target = u.target ∧ t.outputLevel = u.outputLevel ∧ t.extendedFormat = u.extendedFormat

/-- Whatever is written is written while `cerr` is selected. -/
def WritesToCerr (s : State) (before calls : List Call) : Prop :=
  ∀ middle c after text, calls = middle ++ c :: after →
    s.line (before ++ middle) c = some text →
      s.selected (before ++ middle) = some (.stream .cerr)

/-! ## The last choice -/

/-- The calls before locking, with one more at the end. -/
theorem takeWhile_concat (before : List Call) (c : Call) :
    (before ++ [c]).takeWhile (fun c => !c.locks) =
      before.takeWhile (fun c => !c.locks) ++
        if before.any Call.locks || c.locks then [] else [c] := by
  induction before with
  | nil =>
    rw [List.nil_append, List.any_nil, Bool.false_or, List.takeWhile_cons]
    cases c.locks <;> rfl
  | cons d before ih =>
    rw [List.cons_append, List.takeWhile_cons, List.takeWhile_cons, List.any_cons]
    cases d.locks with
    | true => rfl
    | false => simp only [Bool.not_false, if_true, ih, Bool.false_or, List.cons_append]

/-- One more call counts unless the lock is set. -/
theorem lastChosen_concat {choice : Call → Option α} (start : α) (locked : Bool)
    (before : List Call) {c : Call} (hc : c.locks = true → choice c = none) :
    lastChosen choice start locked (before ++ [c]) =
      if locked || before.any Call.locks then lastChosen choice start locked before
      else (choice c).getD (lastChosen choice start locked before) := by
  cases locked with
  | true => rfl
  | false =>
    simp only [lastChosen, Bool.false_or, if_neg Bool.false_ne_true, takeWhile_concat,
      List.reverse_append]
    cases hbefore : before.any Call.locks with
    | true => rfl
    | false =>
      cases hlocks : c.locks with
      | true =>
        rw [hc hlocks]
        rfl
      | false =>
        simp only [Bool.or_self, if_neg Bool.false_ne_true, List.reverse_singleton,
          List.singleton_append, List.findSome?_cons]
        cases choice c <;> rfl

/-! ## The state after calls -/

/-- The shared variables are those that are in force. The log file may have been closed by a call
that could not open another one, so `cerr` is all that is said about the stream. -/
structure Tracks (s : State) (before : List Call) (u : State) : Prop where
  objects : u.objects = s.objects
  hostnameStr : u.hostnameStr = s.hostnameStr
  pid : u.pid = s.pid
  locked : u.locked = (s.locked || before.any Call.locks)
  outputLevel : u.outputLevel = s.levelAfter before
  extendedFormat : u.extendedFormat = s.formatAfter before
  target : u.target = some (.stream .cerr) ↔ s.selected before = some (.stream .cerr)

theorem Tracks.start (s : State) : Tracks s [] s where
  objects := rfl
  hostnameStr := rfl
  pid := rfl
  locked := (Bool.or_false _).symm
  outputLevel := by
    rw [State.levelAfter, lastChosen]
    split <;> rfl
  extendedFormat := by
    rw [State.formatAfter, lastChosen]
    split <;> rfl
  target := by
    rw [State.selected, lastChosen]
    split <;> rfl

/-- What a call does to the shared variables. -/
structure Changes (u : State) (c : Call) (v : State) : Prop where
  hostnameStr : v.hostnameStr = u.hostnameStr
  pid : v.pid = u.pid
  locked : v.locked = (u.locked || c.locks)
  outputLevel : v.outputLevel = if u.locked then u.outputLevel else c.level.getD u.outputLevel
  extendedFormat : v.extendedFormat =
    if u.locked then u.extendedFormat else c.format.getD u.extendedFormat
  target : v.target = some (.stream .cerr) ↔
    (if u.locked then u.target else c.sink.getD u.target) = some (.stream .cerr)

theorem changes_of_call {u v : State} {c : Call} (h : u.call c = some v) : Changes u c v := by
  cases c with
  | write this msg level moment =>
    obtain ⟨data, -, rfl⟩ := Option.map_eq_some_iff.mp h
    have hshared : (u.write data msg (level.getD data.defaultLevel) moment).toShared =
        u.toShared := by
      rw [State.write]
      split <;> rfl
    constructor <;> simp [hshared, Call.locks, Call.level, Call.format, Call.sink]
  | setStream os =>
    obtain rfl := Option.some.inj h
    cases hlocked : u.locked <;> constructor <;> simp [Shared.setStream, Shared.target, hlocked,
      Call.locks, Call.level, Call.format, Call.sink]
  | setOutfile filename opens =>
    obtain rfl := Option.some.inj h
    cases hlocked : u.locked with
    | true => constructor <;> simp [Shared.setOutfile, hlocked, Call.locks]
    | false =>
      cases opens with
      | true => constructor <;> simp [Shared.setOutfile, Shared.target, hlocked, Call.locks,
          Call.level, Call.format, Call.sink]
      | false =>
        -- nothing is open, and `out` may still point to the log file
        have htarget : ({ u.toShared with logFile := none } : Shared).target =
            some (.stream .cerr) ↔ u.target = some (.stream .cerr) := by
          rw [Shared.target, Shared.target]
          cases u.out with
          | null => rfl
          | stream os => rfl
          | logFile => cases u.logFile <;> simp
        constructor
        case target => simpa [Shared.setOutfile, hlocked, Call.sink] using htarget
        all_goals simp [Shared.setOutfile, hlocked, Call.locks, Call.level, Call.format]
  | setOutputLevel level =>
    obtain rfl := Option.some.inj h
    cases hlocked : u.locked <;> constructor <;> simp [Shared.setOutputLevel, Shared.target,
      hlocked, Call.locks, Call.level, Call.format, Call.sink]
  | setExtendedFormat useExtendedFormat =>
    obtain rfl := Option.some.inj h
    cases hlocked : u.locked <;> constructor <;> simp [Shared.setExtendedFormat, Shared.target,
      hlocked, Call.locks, Call.level, Call.format, Call.sink]
  | lockStream =>
    obtain rfl := Option.some.inj h
    constructor <;> simp [Shared.lockStream, Shared.target, Call.locks, Call.level, Call.format,
      Call.sink]

theorem Tracks.call {s u v : State} {before : List Call} {c : Call} (hu : Tracks s before u)
    (h : u.call c = some v) : Tracks s (before ++ [c]) v := by
  have hlevel := lastChosen_concat s.outputLevel s.locked before (c := c) fun hlocks =>
    show c.level = none by cases c <;> first | rfl | cases hlocks
  have hformat := lastChosen_concat s.extendedFormat s.locked before (c := c) fun hlocks =>
    show c.format = none by cases c <;> first | rfl | cases hlocks
  have hsink := lastChosen_concat s.target s.locked before (c := c) fun hlocks =>
    show c.sink = none by cases c <;> first | rfl | cases hlocks
  rw [← hu.locked] at hlevel hformat hsink
  have hchanges := changes_of_call h
  constructor
  case objects => exact (State.call_eq_some h).1.trans hu.objects
  case hostnameStr => exact hchanges.hostnameStr.trans hu.hostnameStr
  case pid => exact hchanges.pid.trans hu.pid
  case locked =>
    rw [hchanges.locked, hu.locked, List.any_append, List.any_cons, List.any_nil, Bool.or_false,
      Bool.or_assoc]
  case outputLevel =>
    rw [hchanges.outputLevel, hu.outputLevel]
    exact hlevel.symm
  case extendedFormat =>
    rw [hchanges.extendedFormat, hu.extendedFormat]
    exact hformat.symm
  case target =>
    rw [hchanges.target, State.selected, hsink]
    split
    · exact hu.target
    · cases c.sink with
      | none => exact hu.target
      | some sink => rfl

/-! ## What a call writes -/

theorem append_nil (sink : Option Sink) (contents : Sink → Bytes) :
    append sink [] contents = contents := by
  funext k
  rw [append, List.append_nil, ite_self]

theorem message_ne_nil (data : Data) (msg : Bytes) : Shared.message data msg ≠ [] :=
  List.append_ne_nil_of_right_ne_nil _ (by decide)

theorem contents_write (u : State) (data : Data) (msg : Bytes) (level : Level)
    (moment : Shared.Moment) :
    (u.write data msg level moment).contents =
      if level ≤ u.outputLevel ∧ u.outputLevel ≠ .off ∧ level ≠ .off then
        append (some (.stream .cerr)) (Shared.message data msg) (append u.target
          (if u.extendedFormat then u.extendedPrefix moment else []) u.contents)
      else u.contents := by
  rw [State.write]
  split
  · cases u.extendedFormat with
    | true => rfl
    | false =>
      simp only [Bool.false_eq_true, if_false, append_nil]
  · rfl

/-- A call writes no text if it has no line, and otherwise the two parts of the line, the second
one to `cerr`. -/
theorem contents_of_call {s u v : State} {before : List Call} {c : Call} (hu : Tracks s before u)
    (h : u.call c = some v) :
    (s.line before c = none ∧ v.contents = u.contents) ∨
      ∃ start message, s.line before c = some (start ++ message) ∧ message ≠ [] ∧
        v.contents = append (some (.stream .cerr)) message (append u.target start u.contents) := by
  cases c with
  | write this msg level moment =>
    obtain ⟨data, hdata, rfl⟩ := Option.map_eq_some_iff.mp h
    have hprefix : u.extendedPrefix moment = s.extendedPrefix moment := by
      rw [Shared.extendedPrefix, Shared.extendedPrefix, hu.hostnameStr, hu.pid]
    have hpasses : (level.getD data.defaultLevel ≤ u.outputLevel ∧ u.outputLevel ≠ .off ∧
        level.getD data.defaultLevel ≠ .off) ↔ s.Passes before (level.getD data.defaultLevel) := by
      rw [State.Passes, hu.outputLevel]
      exact ⟨fun ⟨hle, hout, hlevel⟩ => ⟨hlevel, hout, hle⟩,
        fun ⟨hlevel, hout, hle⟩ => ⟨hle, hout, hlevel⟩⟩
    rw [hu.objects] at hdata
    rw [contents_write, State.line, hdata, hprefix, hu.extendedFormat]
    dsimp only
    by_cases hpass : s.Passes before (level.getD data.defaultLevel)
    · rw [if_pos hpass, if_pos (hpasses.mpr hpass)]
      exact .inr ⟨if s.formatAfter before then s.extendedPrefix moment else [],
        Shared.message data msg, rfl, message_ne_nil data msg, rfl⟩
    · rw [if_neg hpass, if_neg fun hpass' => hpass (hpasses.mp hpass')]
      exact .inl ⟨rfl, rfl⟩
  | _ =>
    obtain rfl := Option.some.inj h
    exact .inl ⟨rfl, rfl⟩

/-! ## Runs of calls -/

theorem writesToCerr_cons {s : State} {before calls : List Call} {c : Call} :
    WritesToCerr s before (c :: calls) ↔
      (∀ text, s.line before c = some text → s.selected before = some (.stream .cerr)) ∧
        WritesToCerr s (before ++ [c]) calls := by
  constructor
  · intro h
    constructor
    · intro text hline
      have hselected := h [] c calls text rfl
      rw [List.append_nil] at hselected
      exact hselected hline
    · intro middle d after text heq hline
      have hselected := h (c :: middle) d after text (congrArg (c :: ·) heq)
      rw [List.append_cons] at hselected
      exact hselected hline
  · rintro ⟨hfirst, hrest⟩ middle d after text heq hline
    cases middle with
    | nil =>
      obtain ⟨rfl, -⟩ := List.cons.inj heq
      rw [List.append_nil] at hline ⊢
      exact hfirst text hline
    | cons d' middle =>
      obtain ⟨rfl, hcalls⟩ := List.cons.inj heq
      rw [List.append_cons] at hline ⊢
      exact hrest middle d after text hcalls hline

/-- What one call sends to `cerr` is at least what is expected, and more where something is not
written to the stream that is selected. -/
theorem length_call {s u v : State} {before : List Call} {c : Call} (hu : Tracks s before u)
    (h : u.call c = some v) :
    let expected :=
      if s.selected before = some (.stream .cerr) then (s.line before c).getD [] else []
    (u.contents (.stream .cerr)).length + expected.length ≤ (v.contents (.stream .cerr)).length ∧
      ((v.contents (.stream .cerr)).length =
        (u.contents (.stream .cerr)).length + expected.length →
          ∀ text, s.line before c = some text → s.selected before = some (.stream .cerr)) := by
  intro expected
  rcases contents_of_call hu h with ⟨hline, hcontents⟩ | ⟨start, message, hline, hne, hcontents⟩
  · have hexpected : expected = [] := by
      simp only [expected, hline, Option.getD_none, ite_self]
    rw [hcontents, hexpected]
    exact ⟨Nat.le_refl _, fun _ text htext => absurd (hline.symm.trans htext) (by simp)⟩
  · have hcerr : v.contents (.stream .cerr) =
        append u.target start u.contents (.stream .cerr) ++ message := by
      rw [hcontents]
      exact if_pos rfl
    by_cases hselected : s.selected before = some (.stream .cerr)
    · have hexpected : expected = start ++ message := by
        simp only [expected, hline, Option.getD_some, if_pos hselected]
      rw [hcerr, hexpected, append, if_pos (hu.target.mpr hselected), List.length_append,
        List.length_append, List.length_append, Nat.add_assoc]
      exact ⟨Nat.le_refl _, fun _ _ _ => hselected⟩
    · have hexpected : expected = [] := if_neg hselected
      have hpos := List.length_pos_iff.mpr hne
      rw [hcerr, hexpected, append, if_neg fun htarget => hselected (hu.target.mp htarget),
        List.length_append, List.length_nil]
      exact ⟨by omega, by omega⟩

theorem length_expected {s u t : State} {before calls : List Call} (hu : Tracks s before u)
    (h : Run State.step (fun _ _ => True) u (calls.map .call) t) :
    (u.contents (.stream .cerr)).length + (s.expected (.stream .cerr) before calls).length ≤
        (t.contents (.stream .cerr)).length ∧
      ((t.contents (.stream .cerr)).length =
        (u.contents (.stream .cerr)).length + (s.expected (.stream .cerr) before calls).length →
          WritesToCerr s before calls) := by
  induction calls generalizing u before with
  | nil =>
    cases h
    refine ⟨Nat.le_refl _, fun _ middle c after text heq => ?_⟩
    exact absurd heq.symm (List.append_ne_nil_of_right_ne_nil _ (List.cons_ne_nil _ _))
  | cons c calls ih =>
    cases h with
    | cons _ hstep rest =>
      obtain ⟨hle, hrest⟩ := ih (hu.call hstep) rest
      obtain ⟨hle', hfirst⟩ := length_call hu hstep
      rw [writesToCerr_cons, State.expected, List.length_append]
      refine ⟨by omega, fun heq => ⟨hfirst (by omega), hrest (by omega)⟩⟩

/-- Where all is written to `cerr`, a call sends its line to it. -/
theorem contents_run {s u t : State} {before calls : List Call} (hu : Tracks s before u)
    (h : Run State.step (fun _ _ => True) u (calls.map .call) t)
    (hcerr : WritesToCerr s before calls) (k : Sink) :
    t.contents k = u.contents k ++ s.expected k before calls := by
  induction calls generalizing u before with
  | nil =>
    cases h
    exact (List.append_nil _).symm
  | cons c calls ih =>
    cases h with
    | @cons _ v _ _ _ _ hstep rest =>
      obtain ⟨hfirst, hrest⟩ := writesToCerr_cons.mp hcerr
      have hcall : v.contents k =
          u.contents k ++ if s.selected before = some k then (s.line before c).getD [] else [] := by
        rcases contents_of_call hu hstep with
          ⟨hline, hcontents⟩ | ⟨start, message, hline, -, hcontents⟩
        · rw [hcontents, hline, Option.getD_none, ite_self, List.append_nil]
        · have hselected := hfirst _ hline
          rw [hcontents, hline, hselected, hu.target.mpr hselected, append, append]
          split
          · rw [Option.getD_some, List.append_assoc]
          · rw [List.append_nil]
      rw [ih (hu.call hstep) rest hrest, hcall, State.expected, List.append_assoc]

/-! ## The lock -/

theorem tracks_run {s u t : State} {before calls : List Call} (hu : Tracks s before u)
    (h : Run State.step (fun _ _ => True) u (calls.map .call) t) :
    Tracks s (before ++ calls) t := by
  induction calls generalizing u before with
  | nil =>
    cases h
    rwa [List.append_nil]
  | cons c calls ih =>
    cases h with
    | cons _ hstep rest =>
      rw [List.append_cons]
      exact ih (hu.call hstep) rest

/-- No call changes a shared variable while the stream is locked. -/
theorem shared_of_locked {u v : State} {c : Call} (hlocked : u.locked = true)
    (h : u.call c = some v) : v.toShared = u.toShared := by
  cases c with
  | write this msg level moment =>
    obtain ⟨data, -, rfl⟩ := Option.map_eq_some_iff.mp h
    rw [State.write]
    split <;> rfl
  | lockStream =>
    obtain rfl := Option.some.inj h
    change { u.toShared with locked := true } = u.toShared
    rw [← hlocked]
  | _ =>
    obtain rfl := Option.some.inj h
    simp [Shared.setStream, Shared.setOutfile, Shared.setOutputLevel, Shared.setExtendedFormat,
      hlocked]

theorem locked_run {u t : State} {calls : List Call} (hlocked : u.locked = true)
    (h : Run State.step (fun _ _ => True) u (calls.map .call) t) : t.toShared = u.toShared := by
  induction calls generalizing u with
  | nil =>
    cases h
    rfl
  | cons c calls ih =>
    cases h with
    | cons _ hstep rest =>
      have hshared := shared_of_locked hlocked hstep
      exact (ih (congrArg Shared.locked hshared |>.trans hlocked) rest).trans hshared

/-- Messages go where they should exactly where all of them should go to `cerr`. -/
theorem logsToSelected_iff {s t : State} {calls : List Call}
    (h : Run State.step (fun _ _ => True) s (calls.map .call) t) :
    LogsToSelected s calls t ↔ WritesToCerr s [] calls := by
  constructor
  · intro hlogs
    refine (length_expected (.start s) h).2 ?_
    rw [hlogs.contents, List.length_append]
  · intro hcerr
    refine ⟨contents_run (.start s) h hcerr, ?_⟩
    intro before after u heq hu hlock
    have hlocked : u.locked = true := by
      rw [(tracks_run (.start s) hu).locked, List.nil_append, Bool.or_eq_true]
      exact hlock.imp id fun hmem => List.any_eq_true.mpr ⟨_, hmem, rfl⟩
    rw [heq, List.map_append] at h
    obtain ⟨u', hu', hafter⟩ := h.split
    obtain rfl := hu.unique hu'
    have hshared := locked_run hlocked hafter
    exact ⟨congrArg Shared.target hshared, congrArg Shared.outputLevel hshared,
      congrArg Shared.extendedFormat hshared⟩

/-- One logger, and nothing written yet. -/
def oneLogger : State where
  toShared := (({} : Shared).construct { hostname := bytes "host", pid := 1 }).2
  objects := Lib.AssocMap.empty.insert 0 { appname := bytes "nawa" }

/-- The time of a message, and the program. -/
def someMoment : Shared.Moment where
  now := ⟨2024, 1, 29, 4, 12, 0, 0⟩
  programInvocationName := bytes "nawarun"

theorem logsToSelected_iff_write :
    let calls : List Call := [.write 0 (bytes "hello") none someMoment]
    let t := oneLogger.write { appname := bytes "nawa" } (bytes "hello") .informational someMoment
    LogsToSelected oneLogger calls t ∧
      t.contents (.stream .cerr) = bytes "[nawa] hello\n" := by
  intro calls t
  have hrun : Run State.step (fun _ _ => True) oneLogger (calls.map .call) t := .single trivial rfl
  have hcerr : WritesToCerr oneLogger [] calls := by
    intro middle c after text hcalls _
    have hlength := congrArg List.length hcalls
    rw [List.length_append, List.length_cons, List.length_cons, List.length_nil] at hlength
    obtain rfl := List.length_eq_zero_iff.mp (show middle.length = 0 by omega)
    rfl
  exact ⟨(logsToSelected_iff hrun).mpr hcerr, by decide⟩

/-- A message to another stream never gets there. -/
theorem not_logsToSelected : ¬ ∀ (s t : State) (calls : List Call),
    Run State.step (fun _ _ => True) s (calls.map .call) t → LogsToSelected s calls t := by
  intro h
  let calls : List Call := [.setStream (.other 0), .write 0 (bytes "hello") none someMoment]
  have hrun : Run State.step (fun _ _ => True) oneLogger (calls.map .call) _ :=
    .cons trivial rfl (.cons trivial rfl (.nil _))
  have hcontents := (h _ _ calls hrun).contents (.stream (.other 0))
  revert hcontents
  decide

end Nawa.Log
