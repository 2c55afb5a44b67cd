import Swarmagent.Kubernetes.Events
import Swarmagent.Machine.Lines
import Swarmagent.Machine.Loop

/-!
# The pod watch

`watch_once` reads a chunked response body, in which every line is a JSON document, and hands each
to `diff_watch_event`.  Chunks are cut anywhere, so what has been received of an unfinished line
is kept in a buffer, from which an inner loop takes complete lines.  `run_events` opens one watch
after the other and keeps the watch state between them.

The first half of this file is the model of the two.  The second half shows that chunks make no
difference: a session does what folding `diff_watch_event` over the complete lines of the bytes
received does (`watchOnce_eq`), and what follows the last newline is forgotten with the session
(`runEvents_eq`).

## What is left open

* `fromSlice` is `serde_json::from_slice`.
* The clock and the enumeration order of the map may be different at every line of a session, so
  they are functions of the line's number, blank and bad lines counted (`Ambient`).
* Whether an event is posted successfully has no influence on anything, as failures are only
  logged.
-/

namespace Swarmagent.Kubernetes

open Swarmagent.Json

/-- The bytes of a chunk or of a line. -/
abbrev Bytes := List UInt8

def newline : UInt8 := 0x0A

/-- `u8::is_ascii_whitespace`: space, tab, line feed, form feed and carriage return. -/
def isAsciiWhitespace (b : UInt8) : Bool :=
  b = 0x20 || b = 0x09 || b = 0x0A || b = 0x0C || b = 0x0D

/-- What a session meets besides the stream when it handles its `i`-th line. -/
structure Ambient where
  now : ℕ → Int
  order : ℕ → KeyOrder

/-- The variables of `watch_once`, and what it has done so far. -/
structure Session where
  buf : Bytes
  state : WatchState
  /-- How many lines have been taken from the buffer. -/
  taken : ℕ
  /-- The calls of `diff_watch_event`, in order. -/
  calls : List WatchCall
  /-- The events posted, in order. -/
  posted : List AgentEvent

/-- What a session begins with. -/
def Session.fresh (state : WatchState) : Session where
  buf := []
  state := state
  taken := 0
  calls := []
  posted := []

section Watch

variable (timestampOf : String → Option Int) (fromSlice : Bytes → Option Value)

/-- The call of `diff_watch_event` for a line, if there is one. -/
def lineCall (ambient : Ambient) (i : ℕ) (line : Bytes) : Option WatchCall :=
  if line.all isAsciiWhitespace then none
  else match fromSlice line with
    | none => none
    | some parsed =>
        let eventType := ((parsed.get "type").bind Value.asStr).getD ""
        match parsed.get "object" with
        | none => none
        | some object => some ⟨⟨eventType, object, ambient.now i⟩, ambient.order i⟩

/-- Call `diff_watch_event` and post what it returns. -/
def Session.call (s : Session) (c : WatchCall) : Session :=
  { s with
    state := (watchStep timestampOf s.state c).1
    calls := s.calls ++ [c]
    posted := s.posted ++ (watchStep timestampOf s.state c).2 }

/-- One round of the inner loop: take a line, with its newline, from the buffer. -/
def drainStep (ambient : Ambient) (s : Session) : Option Session :=
  match s.buf.idxOf? newline with
  | none => none
  | some pos =>
      let drained := s.buf.take (pos + 1)
      let line := drained.take (drained.length - 1)
      let s' := { s with buf := s.buf.drop (pos + 1), taken := s.taken + 1 }
      match lineCall fromSlice ambient s.taken line with
      | none => some s'
      | some c => some (s'.call timestampOf c)

/-- The inner loop. -/
def drain (ambient : Ambient) (s : Session) : Session :=
  Machine.loop (drainStep timestampOf fromSlice ambient) s.buf.length s

variable {ε : Type*}

/-- The outer loop, over the items of the stream. -/
def watchLoop (ambient : Ambient) : Session → List (Except ε Bytes) → Session × Except ε Unit
  | s, [] => (s, .ok ())
  | s, .error e :: _ => (s, .error e)
  | s, .ok chunk :: items =>
      watchLoop ambient (drain timestampOf fromSlice ambient { s with buf := s.buf ++ chunk }) items

/-- One pass over the pod watch stream, which opening it may fail to give. -/
def watchOnce (ambient : Ambient) (state : WatchState)
    (stream : Except ε (List (Except ε Bytes))) : Session × Except ε Unit :=
  match stream with
  | .error e => (.fresh state, .error e)
  | .ok items => watchLoop timestampOf fromSlice ambient (.fresh state) items

/-! ### Reconnects -/

/-- One attempt to watch: the stream it gets, if any, and what it meets besides. -/
structure Connection (ε : Type*) where
  stream : Except ε (List (Except ε Bytes))
  ambient : Ambient

/-- The variables of `run_events`. -/
structure EventLoop where
  state : WatchState
  /-- Seconds to wait before the next attempt. -/
  delay : ℕ

/-- What `run_events` begins with. -/
def EventLoop.init : EventLoop := { state := ∅, delay := 1 }

/-- What one round of `run_events` did. -/
structure Attempt (ε : Type*) where
  session : Session
  outcome : Except ε Unit
  /-- How long it slept afterwards. -/
  slept : ℕ

/-- One round of `run_events`. -/
def eventLoopStep (s : EventLoop) (c : Connection ε) : EventLoop × List (Attempt ε) :=
  let r := watchOnce timestampOf fromSlice c.ambient s.state c.stream
  ({ state := r.1.state, delay := min (s.delay * 2) 60 },
    [{ session := r.1, outcome := r.2, slept := s.delay }])

/-- `run_events`, as far as it got after the given attempts. -/
def runEvents (s : EventLoop) (conns : List (Connection ε)) : EventLoop × List (Attempt ε) :=
  Machine.run (eventLoopStep timestampOf fromSlice) s conns

/-! ## What a session does, line by line -/

/-- The calls for the given lines, of which the first is the `n`-th. -/
def lineCalls (ambient : Ambient) (n : ℕ) (lines : List Bytes) : List WatchCall :=
  (lines.zipIdx n).filterMap fun x ↦ lineCall fromSlice ambient x.2 x.1

@[simp] theorem lineCalls_nil (ambient : Ambient) (n : ℕ) :
    lineCalls fromSlice ambient n [] = [] := rfl

theorem lineCalls_append (ambient : Ambient) (n : ℕ) (lines lines' : List Bytes) :
    lineCalls fromSlice ambient n (lines ++ lines') =
      lineCalls fromSlice ambient n lines ++
        lineCalls fromSlice ambient (n + lines.length) lines' := by
  rw [lineCalls, List.zipIdx_append, List.filterMap_append]
  rfl

/-- A line gets no call if it is blank, not JSON or without an object. -/
theorem lineCall_eq_none_iff {ambient : Ambient} {i : ℕ} {line : Bytes} :
    lineCall fromSlice ambient i line = none ↔
      (∀ b ∈ line, isAsciiWhitespace b = true) ∨ fromSlice line = none ∨
        ∃ parsed, fromSlice line = some parsed ∧ parsed.get "object" = none := by
  unfold lineCall
  split
  · rename_i hblank
    simpa using Or.inl (List.all_eq_true.mp hblank)
  · rename_i hblank
    rw [List.all_eq_true] at hblank
    cases hparse : fromSlice line with
    | none => simp
    | some parsed => cases hobject : parsed.get "object" <;> simp [hobject, hblank]

/-- The call of any other line carries the line's own type, empty if that is missing or no string,
and its own object, with the clock and the order of the line. -/
theorem lineCall_eq_some_iff {ambient : Ambient} {i : ℕ} {line : Bytes} {c : WatchCall} :
    lineCall fromSlice ambient i line = some c ↔
      (∃ b ∈ line, isAsciiWhitespace b = false) ∧ ∃ parsed, fromSlice line = some parsed ∧
        ∃ object, parsed.get "object" = some object ∧
          c = ⟨⟨((parsed.get "type").bind Value.asStr).getD "", object, ambient.now i⟩,
            ambient.order i⟩ := by
  unfold lineCall
  split
  · rename_i hblank
    refine iff_of_false (by simp) ?_
    rintro ⟨⟨b, hb, hnot⟩, -⟩
    rw [List.all_eq_true.mp hblank b hb] at hnot
    cases hnot
  · rename_i hblank
    rw [List.all_eq_true] at hblank
    cases hparse : fromSlice line with
    | none => simp
    | some parsed =>
        cases hobject : parsed.get "object" with
        | none => simp [hobject]
        | some object =>
            have hnot : ∃ b ∈ line, isAsciiWhitespace b = false := by simpa using hblank
            simp only [hobject, hnot, true_and, Option.some.injEq, exists_eq_left']
            exact eq_comm

/-- The session after handling the given lines, with `buf` left in the buffer. -/
def Session.handle (ambient : Ambient) (s : Session) (lines : List Bytes) (buf : Bytes) :
    Session :=
  let calls := lineCalls fromSlice ambient s.taken lines
  { buf := buf
    state := (watchRun timestampOf s.state calls).1
    taken := s.taken + lines.length
    calls := s.calls ++ calls
    posted := s.posted ++ (watchRun timestampOf s.state calls).2 }

/-- Handling no line changes nothing but the buffer. -/
theorem Session.handle_nil (ambient : Ambient) (s : Session) :
    s.handle timestampOf fromSlice ambient [] s.buf = s := by
  simp [Session.handle, watchRun]

/-- Handling some lines and then others is handling all of them. -/
theorem Session.handle_handle (ambient : Ambient) (s : Session) (lines lines' : List Bytes)
    (buf buf' : Bytes) :
    (s.handle timestampOf fromSlice ambient lines buf).handle timestampOf fromSlice ambient
        lines' buf' =
      s.handle timestampOf fromSlice ambient (lines ++ lines') buf' := by
  simp only [Session.handle, lineCalls_append, watchRun, Machine.run_append, List.append_assoc,
    List.length_append, Nat.add_assoc]

/-! ### The inner loop -/

/-- Without a newline in the buffer the inner loop is left. -/
theorem drainStep_eq_none_iff {ambient : Ambient} {s : Session} :
    drainStep timestampOf fromSlice ambient s = none ↔ newline ∉ s.buf := by
  rw [← List.idxOf?_eq_none_iff]
  unfold drainStep
  split
  · rename_i h
    exact iff_of_true rfl h
  · rename_i pos h
    refine iff_of_false ?_ (by simp [h])
    show ¬(match lineCall fromSlice ambient s.taken _ with
      | none => some _
      | some c => some _) = none
    split <;> simp

/-- A round of the inner loop handles the first line in the buffer. -/
theorem drainStep_cons {ambient : Ambient} {s : Session} {line buf : Bytes}
    (hbuf : s.buf = line ++ newline :: buf) (hline : newline ∉ line) :
    drainStep timestampOf fromSlice ambient s =
      some (s.handle timestampOf fromSlice ambient [line] buf) := by
  have hpos : s.buf.idxOf? newline = some line.length := by
    refine List.idxOf?_eq_some_iff.mpr ⟨by simp [hbuf], by simp [hbuf], fun j hj heq ↦ hline ?_⟩
    have hget : (line)[j] = newline := by simpa [hbuf, List.getElem_append_left hj] using heq
    exact hget ▸ List.getElem_mem hj
  have hdrained : s.buf.take (line.length + 1) = line ++ [newline] := by
    simp [hbuf, List.take_append]
  have hdrop : s.buf.drop (line.length + 1) = buf := by
    simp [hbuf, List.drop_append]
  have htake : (line ++ [newline]).take ((line ++ [newline]).length - 1) = line := by simp
  unfold drainStep
  rw [hpos]
  simp only [hdrained, hdrop, htake]
  cases hcall : lineCall fromSlice ambient s.taken line <;>
    simp [Session.handle, Session.call, lineCalls, hcall, watchRun]

/-- **The rounds of the inner loop.**  Each takes the first line from the buffer and handles it. -/
theorem exists_line_of_drainStep {ambient : Ambient} {s s' : Session}
    (h : drainStep timestampOf fromSlice ambient s = some s') :
    ∃ line buf, s.buf = line ++ newline :: buf ∧ newline ∉ line ∧
      s' = s.handle timestampOf fromSlice ambient [line] buf := by
  have hmem : newline ∈ s.buf := by
    by_contra hmem
    rw [(drainStep_eq_none_iff timestampOf fromSlice).mpr hmem] at h
    cases h
  obtain ⟨line, buf, hbuf, hline⟩ := List.eq_append_cons_of_mem hmem
  rw [drainStep_cons timestampOf fromSlice hbuf hline, Option.some.injEq] at h
  exact ⟨line, buf, hbuf, hline, h.symm⟩

/-- **The inner loop ends**, for every buffer. -/
theorem drain_ends (ambient : Ambient) (s : Session) :
    Machine.Ends (drainStep timestampOf fromSlice ambient) s
      (drain timestampOf fromSlice ambient s) := by
  have hshorter : ∀ s s', drainStep timestampOf fromSlice ambient s = some s' →
      s'.buf.length < s.buf.length := by
    intro s s' h
    obtain ⟨line, buf, hbuf, -, rfl⟩ := exists_line_of_drainStep timestampOf fromSlice h
    show buf.length < s.buf.length
    rw [hbuf, List.length_append, List.length_cons]
    omega
  exact Machine.loop_ends hshorter le_rfl

/-- Where the inner loop ends, it has handled the complete lines in the buffer and has left what
follows them. -/
theorem handle_of_ends {ambient : Ambient} {s r : Session}
    (h : Machine.Ends (drainStep timestampOf fromSlice ambient) s r) :
    r = s.handle timestampOf fromSlice ambient (Machine.lines newline s.buf)
      (Machine.rest newline s.buf) := by
  induction h with
  | done hs =>
      have hbuf := (drainStep_eq_none_iff timestampOf fromSlice).mp hs
      rw [Machine.lines_of_notMem hbuf, Machine.rest_of_notMem hbuf, Session.handle_nil]
  | next hs _ ih =>
      obtain ⟨line, buf, hbuf, hline, rfl⟩ := exists_line_of_drainStep timestampOf fromSlice hs
      rw [ih, Session.handle_handle, hbuf, Machine.lines_cons hline, Machine.rest_cons]
      rfl

theorem drain_eq (ambient : Ambient) (s : Session) :
    drain timestampOf fromSlice ambient s =
      s.handle timestampOf fromSlice ambient (Machine.lines newline s.buf)
        (Machine.rest newline s.buf) :=
  handle_of_ends timestampOf fromSlice (drain_ends timestampOf fromSlice ambient s)

/-! ### The outer loop -/

variable {ε : Type*}

/-- The bytes received before the stream ends or fails. -/
def received : List (Except ε Bytes) → Bytes
  | [] => []
  | .error _ :: _ => []
  | .ok chunk :: items => chunk ++ received items

/-- The outer loop, with no complete line in the buffer, handles the lines completed by what is
received. -/
theorem watchLoop_eq (ambient : Ambient) (s : Session) (items : List (Except ε Bytes))
    (hs : newline ∉ s.buf) :
    (watchLoop timestampOf fromSlice ambient s items).1 =
      s.handle timestampOf fromSlice ambient (Machine.lines newline (s.buf ++ received items))
        (Machine.rest newline (s.buf ++ received items)) := by
  induction items generalizing s with
  | nil =>
      rw [received, List.append_nil, Machine.lines_of_notMem hs, Machine.rest_of_notMem hs,
        Session.handle_nil]
      rfl
  | cons item items ih =>
      cases item with
      | error e =>
          rw [received, List.append_nil, Machine.lines_of_notMem hs, Machine.rest_of_notMem hs,
            Session.handle_nil]
          rfl
      | ok chunk =>
          have hexit := (drainStep_eq_none_iff timestampOf fromSlice).mp
            (drain_ends timestampOf fromSlice ambient { s with buf := s.buf ++ chunk }).exit
          rw [watchLoop, ih _ hexit, drain_eq, Session.handle_handle]
          show s.handle timestampOf fromSlice ambient
            (Machine.lines newline (s.buf ++ chunk) ++ Machine.lines newline
              (Machine.rest newline (s.buf ++ chunk) ++ received items))
            (Machine.rest newline (Machine.rest newline (s.buf ++ chunk) ++ received items)) = _
          rw [← Machine.lines_append, ← Machine.rest_append, received, List.append_assoc]

/-- What a connection receives. -/
def Connection.received (c : Connection ε) : Bytes :=
  match c.stream with
  | .error _ => []
  | .ok items => Kubernetes.received items

/-- **One session.**  However the bytes received are cut into chunks, a session handles the
complete lines among them. -/
theorem watchOnce_eq (state : WatchState) (c : Connection ε) :
    (watchOnce timestampOf fromSlice c.ambient state c.stream).1 =
      (Session.fresh state).handle timestampOf fromSlice c.ambient
        (Machine.lines newline c.received) (Machine.rest newline c.received) := by
  unfold watchOnce Connection.received
  cases c.stream with
  | error e => rfl
  | ok items =>
      exact watchLoop_eq timestampOf fromSlice c.ambient (.fresh state) items List.not_mem_nil

/-- The calls of a connection: one for each complete line it receives that is neither blank nor
bad. -/
def Connection.calls (c : Connection ε) : List WatchCall :=
  lineCalls fromSlice c.ambient 0 (Machine.lines newline c.received)

/-! ### Reconnects -/

/-- One round of `run_events` makes the calls of its connection. -/
theorem eventLoopStep_eq (s : EventLoop) (c : Connection ε) :
    (eventLoopStep timestampOf fromSlice s c).1.state =
        (watchRun timestampOf s.state (c.calls fromSlice)).1 ∧
      (eventLoopStep timestampOf fromSlice s c).2.flatMap (fun a ↦ a.session.calls) =
        c.calls fromSlice ∧
      (eventLoopStep timestampOf fromSlice s c).2.flatMap (fun a ↦ a.session.posted) =
        (watchRun timestampOf s.state (c.calls fromSlice)).2 := by
  simp only [eventLoopStep, watchOnce_eq, List.flatMap_singleton]
  exact ⟨rfl, rfl, rfl⟩

/-- **Reconnects.**  Only the watch state passes from one session to the next: `run_events` makes
the calls of one connection after the other, and nothing is left of what the last newline of a
session was followed by. -/
theorem runEvents_eq (s : EventLoop) (conns : List (Connection ε)) :
    (runEvents timestampOf fromSlice s conns).1.state =
        (watchRun timestampOf s.state (conns.flatMap (Connection.calls fromSlice))).1 ∧
      (runEvents timestampOf fromSlice s conns).2.flatMap (fun a ↦ a.session.calls) =
        conns.flatMap (Connection.calls fromSlice) ∧
      (runEvents timestampOf fromSlice s conns).2.flatMap (fun a ↦ a.session.posted) =
        (watchRun timestampOf s.state (conns.flatMap (Connection.calls fromSlice))).2 := by
  unfold runEvents
  induction conns generalizing s with
  | nil => exact ⟨rfl, rfl, rfl⟩
  | cons c conns ih =>
      obtain ⟨hstate, hcalls, hposted⟩ := eventLoopStep_eq timestampOf fromSlice s c
      obtain ⟨hstates, hcallss, hposteds⟩ := ih (eventLoopStep timestampOf fromSlice s c).1
      rw [hstate] at hstates hposteds
      simp only [Machine.run_cons, List.flatMap_cons, List.flatMap_append, watchRun,
        Machine.run_append] at hstates hposteds ⊢
      refine ⟨hstates, ?_, ?_⟩
      · rw [hcalls, hcallss]
      · rw [hposted, hposteds]
        rfl

/-- **Framing does not depend on chunking.**  The inner loop always ends.  A session makes the
calls that the complete lines of the bytes received give, each line once and in order, where blank
lines, lines that are not JSON and lines without an object give none, and every other line gives the
call with its own type and object; it ends in the state which folding `diff_watch_event` over these
calls ends in, and posts what that returns.  Over several sessions nothing but the watch state is
carried on. -/
theorem watch_framing :
    (∀ ambient s, Machine.Ends (drainStep timestampOf fromSlice ambient) s
        (drain timestampOf fromSlice ambient s)) ∧
      (∀ ambient i line, lineCall fromSlice ambient i line = none ↔
        (∀ b ∈ line, isAsciiWhitespace b = true) ∨ fromSlice line = none ∨
          ∃ parsed, fromSlice line = some parsed ∧ parsed.get "object" = none) ∧
      (∀ ambient i line c, lineCall fromSlice ambient i line = some c ↔
        (∃ b ∈ line, isAsciiWhitespace b = false) ∧ ∃ parsed, fromSlice line = some parsed ∧
          ∃ object, parsed.get "object" = some object ∧
            c = ⟨⟨((parsed.get "type").bind Value.asStr).getD "", object, ambient.now i⟩,
              ambient.order i⟩) ∧
      (∀ ambient state (items : List (Except ε Bytes)),
        let calls := lineCalls fromSlice ambient 0
          ((received items).splitOn newline).dropLast
        let s := (watchOnce timestampOf fromSlice ambient state (.ok items)).1
        s.calls = calls ∧ (s.state, s.posted) = watchRun timestampOf state calls) ∧
      ∀ (s : EventLoop) (conns : List (Connection ε)),
        let calls := conns.flatMap fun c ↦ lineCalls fromSlice c.ambient 0
          (c.received.splitOn newline).dropLast
        let r := runEvents timestampOf fromSlice s conns
        r.2.flatMap (fun a ↦ a.session.calls) = calls ∧
          (r.1.state, r.2.flatMap fun a ↦ a.session.posted) =
            watchRun timestampOf s.state calls := by
  refine ⟨drain_ends timestampOf fromSlice, fun ambient i line ↦ lineCall_eq_none_iff fromSlice,
    fun ambient i line c ↦ lineCall_eq_some_iff fromSlice,
    fun ambient state items ↦ ?_, fun s conns ↦ ?_⟩
  · intro calls s
    have hs : s = (Session.fresh state).handle timestampOf fromSlice ambient
        (Machine.lines newline (received items)) (Machine.rest newline (received items)) :=
      watchOnce_eq timestampOf fromSlice state ⟨.ok items, ambient⟩
    rw [hs]
    exact ⟨rfl, rfl⟩
  · obtain ⟨hstate, hcalls, hposted⟩ := runEvents_eq timestampOf fromSlice s conns
    exact ⟨hcalls, Prod.ext hstate hposted⟩

end Watch

end Swarmagent.Kubernetes
