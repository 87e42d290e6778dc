import Reassembly.Stream.Basic

/-!
# Feeding a stream

The decoded pieces of a request are fed to a stream, which writes them as request text
into its segment and delivers full segments to its sink:

* pseudo-headers are kept until the first regular header or the end of the headers, which
  writes the request line and, if there is an authority, a `Host` line;
* a head line that does not fit the rest of a used segment goes into a fresh one, after
  the used one has been delivered;
* data fills the segment, and every segment that is full while data is left is delivered;
* closing the input delivers what is left and then, once, the end of the stream.

A call may fail half-way. Whatever it did before it failed stays done: the segment that a
sink refused, for one, is still there for the next attempt.
-/

namespace Reassembly

/-- A stream together with the sink it delivers to. -/
structure Feed (Queue : Type) where
  stream : Stream
  queue : Queue
  /-- What observers have been told, oldest first. -/
  notices : List Notice := []
  deriving DecidableEq, Repr

/-- A call on a stream. A failed call keeps its effects up to the failure. -/
abbrev FeedM (Queue : Type) := EStateM StreamError (Feed Queue)

namespace Feed

open Delivery (Sink)

variable {Queue : Type}

/-- The name under which an authority is written as a header line. -/
def hostName : Bytes := Bytes.ascii "Host"

def modifyStream (change : Stream → Stream) : FeedM Queue Unit :=
  modify fun feed => { feed with stream := change feed.stream }

/-- Puts a segment in the place of the one being filled. -/
def setWork (work : Option Segment) : FeedM Queue Unit :=
  modifyStream ({ · with work })

/-- Fails if the peer breaks the order of a request. -/
def refuseIf (condition : Bool) (violation : Violation) : FeedM Queue Unit :=
  if condition then throw (.violation violation) else pure ()

/-- The segment being filled, after opening one if there is none. -/
def openWork : FeedM Queue Segment := do
  let stream := (← get).stream
  match stream.work with
  | some segment => pure segment
  | none =>
      match Segment.allocate stream.session.config.segmentCapacity with
      | .ok segment =>
          setWork (some segment)
          pure segment
      | .error error => throw (.outOfMemory error)

/-- Writes a line into the segment being filled, without ever delivering that segment. -/
def writeInPlace (line : HeadLine) : FeedM Queue Unit := do
  let segment ← openWork
  match line.write.run segment with
  | .ok _ written => setWork (some written)
  | .error error _ => throw (.ofEncodeError error)

@[simp]
theorem run_setWork (work : Option Segment) (feed : Feed Queue) :
    (setWork work).run feed
      = .ok () { feed with stream := { feed.stream with work } } := rfl

theorem run_openWork_of_some {feed : Feed Queue} {segment : Segment}
    (work : feed.stream.work = some segment) : openWork.run feed = .ok segment feed := by
  simp [openWork, work]

/-- Opening a segment adds an empty one to the stream. -/
theorem run_openWork_of_none {feed : Feed Queue} (work : feed.stream.work = none)
    (allocatable : feed.stream.session.config.segmentCapacity < Segment.allocationLimit) :
    openWork.run feed
      = .ok (.empty feed.stream.session.config.segmentCapacity)
        { feed with stream := { feed.stream with
            work := some (.empty feed.stream.session.config.segmentCapacity) } } := by
  simp only [openWork, EStateM.run_bind, EStateM.run_get, work, Segment.allocate,
    allocatable, ↓reduceIte, run_setWork, EStateM.run_pure]

/-- A stream that has no segment opens an empty one. -/
theorem isEmpty_of_openWork {before opened : Feed Queue} {segment : Segment}
    (open_eq : openWork.run before = .ok segment opened) (work : before.stream.work = none) :
    segment.isEmpty = true := by
  simp only [openWork, EStateM.run_bind, EStateM.run_get, work] at open_eq
  cases allocated : Segment.allocate before.stream.session.config.segmentCapacity with
  | error error =>
      rw [allocated] at open_eq
      cases open_eq
  | ok fresh =>
      rw [allocated] at open_eq
      cases open_eq
      rw [← (Segment.allocate_eq_ok_iff.mp allocated).2]
      rfl

section Deliver

variable [Sink Queue]

/-- Delivers the segment being filled. An empty segment is dropped, and one that the sink
refuses stays with the stream. -/
def push : FeedM Queue Unit := do
  let feed ← get
  match feed.stream.work with
  | none => pure ()
  | some segment =>
      setWork none
      if segment.isEmpty then
        pure ()
      else
        match (Sink.append feed.stream.id segment).run feed.queue with
        | .ok _ queue => modify ({ · with queue })
        | .error rejection queue =>
            modify ({ · with queue })
            setWork (some rejection.segment)
            throw (.refused rejection.cause)

/-- Writes a line. One that does not fit the rest of a used segment is written into a
fresh one, once the used one has been delivered. -/
def writeLine (line : HeadLine) : FeedM Queue Unit := do
  let segment ← openWork
  match line.write.run segment with
  | .ok _ written => setWork (some written)
  | .error (.tooLarge needed available) _ =>
      if segment.isEmpty then
        throw (.tooLarge needed available)
      else
        push
        writeInPlace line
  | .error error _ => throw (.ofEncodeError error)

/-- Writes the request line and the line that its authority becomes. -/
def startRequest : FeedM Queue Unit := do
  let stream := (← get).stream
  match stream.pseudo.method, stream.pseudo.path with
  | none, _ => throw (.violation (.missing .method))
  | some _, none => throw (.violation (.missing .path))
  | some method, some path =>
      writeInPlace (.request method path stream.session.config.requestVersion)
      modifyStream ({ · with requestStarted := true })
      match stream.pseudo.authority with
      | none => pure ()
      | some authority => writeLine (.field hostName authority)

/-- Writes the request line unless that has been done. -/
def ensureStarted : FeedM Queue Unit := do
  if (← get).stream.requestStarted then pure () else startRequest

/-- Takes a pseudo-header, which must arrive before any request text, with a value, and
once. One of an unknown name is ignored. -/
def addPseudoHeader (name value : Bytes) : FeedM Queue Unit := do
  let stream := (← get).stream
  refuseIf (stream.requestStarted || stream.work.isSome) .pseudoHeaderAfterStart
  refuseIf value.isEmpty (.pseudoHeaderWithoutValue name)
  match PseudoField.ofName? name with
  | none => pure ()
  | some field =>
      refuseIf (stream.pseudo.get? field).isSome (.duplicatePseudoHeader name)
      modifyStream fun stream => { stream with pseudo := stream.pseudo.put value field }

/-- Takes a header field. A field without a name is ignored. -/
def addHeader (name value : Bytes) : FeedM Queue Unit := do
  if name.isEmpty then
    pure ()
  else
    refuseIf (← get).stream.lifecycle.isInputClosed .headerAfterEnd
    if isPseudoName name then
      addPseudoHeader name value
    else
      ensureStarted
      writeLine (.field name value)

/-- One pass over data: the current segment takes what it has room for and, if that was not
all, is delivered. Gives what is left. -/
def fillOnce (data : Bytes) : FeedM Queue Bytes := do
  let segment ← openWork
  let (written, filled) := segment.append data
  setWork (some filled)
  let rest := data.drop written
  if rest.isEmpty then
    pure rest
  -- segments without any room would take nothing for ever
  else if written = 0 && filled.isEmpty then
    throw (.tooLarge rest.length filled.capacity)
  else
    push
    pure rest

theorem work_of_push {before after : Feed Queue} (delivered : push.run before = .ok () after) :
    after.stream.work = none := by
  unfold push at delivered
  rw [EStateM.run_bind, EStateM.run_get] at delivered
  cases work : before.stream.work with
  | none =>
      simp only [work] at delivered
      cases delivered
      exact work
  | some segment =>
      simp only [work, EStateM.run_bind, run_setWork] at delivered
      split at delivered
      · cases delivered
        rfl
      · cases answer : (Sink.append before.stream.id segment).run before.queue with
        | ok _ queue =>
            simp only [answer] at delivered
            cases delivered
            rfl
        | error rejection queue =>
            simp only [answer] at delivered
            cases delivered

/-- A pass that leaves something over has delivered a segment that data could go into. -/
theorem exists_of_fillOnce {before after : Feed Queue} {data rest : Bytes}
    (pass : (fillOnce data).run before = .ok rest after) (more : ¬rest.isEmpty = true) :
    ∃ segment opened, openWork.run before = .ok segment opened ∧
      rest = data.drop (segment.append data).1 ∧
      ¬((segment.append data).1 = 0 ∧ (segment.append data).2.isEmpty = true) ∧
      after.stream.work = none := by
  unfold fillOnce at pass
  rw [EStateM.run_bind] at pass
  cases open_eq : openWork.run before with
  | error error opened =>
      rw [open_eq] at pass
      cases pass
  | ok segment opened =>
      simp only [open_eq, EStateM.run_bind, run_setWork] at pass
      split at pass
      · rename_i nothingLeft
        cases pass
        exact absurd nothingLeft more
      · split at pass
        · cases pass
        · rename_i left progress
          rw [EStateM.run_bind] at pass
          split at pass
          · rename_i delivered
            cases pass
            exact ⟨segment, opened, rfl, rfl, by simpa using progress, work_of_push delivered⟩
          · cases pass

/-- A pass that leaves something over has written something, or else has delivered a segment
that was there before it. -/
theorem shorter_of_fillOnce {before after : Feed Queue} {data rest : Bytes}
    (pass : (fillOnce data).run before = .ok rest after) (more : ¬rest.isEmpty = true) :
    rest.length + after.stream.work.isSome.toNat
      < data.length + before.stream.work.isSome.toNat := by
  obtain ⟨segment, opened, open_eq, rfl, progress, delivered⟩ := exists_of_fillOnce pass more
  rw [Bool.not_eq_true, List.isEmpty_eq_false_iff, ← List.length_pos_iff, List.length_drop] at more
  rw [delivered, List.length_drop, Option.isSome_none, Bool.toNat_false]
  cases work : before.stream.work with
  | some _ =>
      rw [Option.isSome_some, Bool.toNat_true]
      omega
  | none =>
      have written_pos : (segment.append data).1 ≠ 0 := fun nothing =>
        progress ⟨nothing, Segment.isEmpty_append_iff.mpr
          ⟨isEmpty_of_openWork open_eq work, nothing⟩⟩
      rw [Option.isSome_none, Bool.toNat_false]
      omega

/-- Fills segments with data, pass by pass, until nothing is left. -/
@[semireducible]
def fill (data : Bytes) : FeedM Queue Unit := fun before =>
  match _ : (fillOnce data).run before with
  | .error error after => .error error after
  | .ok rest after => if _ : rest.isEmpty then .ok () after else fill rest after
termination_by before => data.length + before.stream.work.isSome.toNat
decreasing_by exact shorter_of_fillOnce ‹_› ‹_›

/-- Takes a piece of the body. It fills the current segment; what is left goes into fresh
segments, each delivered when it is full and data is left. -/
def addData (data : Bytes) : FeedM Queue Unit := do
  refuseIf (← get).stream.lifecycle.isInputClosed .dataAfterEnd
  fill data

/-- Ends the header section and delivers it. -/
def endHeaders : FeedM Queue Unit := do
  refuseIf (← get).stream.lifecycle.isInputClosed .endOfHeadersAfterEnd
  ensureStarted
  let _ ← openWork
  modifyStream ({ · with endOfHeaders := true })
  writeLine .blank
  push

/-- Moves the stream to another state and tells its observer, if that is a change. -/
def moveTo (next : Lifecycle) : FeedM Queue Unit :=
  modify fun feed =>
    let old := feed.stream.lifecycle
    if old = next then feed
    else
      { feed with
        stream := { feed.stream with lifecycle := next }
        notices := feed.notices ++ feed.stream.observer.toList.map fun observer =>
          { observer, stream := feed.stream.id, old, new := next } }

def deliverEnd : FeedM Queue Unit := do
  let feed ← get
  match (Sink.appendEnd feed.stream.id).run feed.queue with
  | .ok _ queue =>
      modify ({ · with queue })
      modifyStream ({ · with endDelivered := true })
  | .error cause queue =>
      modify ({ · with queue })
      throw (.refused cause)

/-- Closes the input half and delivers what is left, followed by the end of the stream.
The end is delivered once, however often this is called. -/
def closeInput : FeedM Queue Unit := do
  moveTo (← get).stream.lifecycle.closeInput
  if (← get).stream.endDelivered then
    pure ()
  else
    push
    deliverEnd

end Deliver

def closeOutput : FeedM Queue Unit := do
  moveTo (← get).stream.lifecycle.closeOutput

/-- Marks the stream as not worth going on with. -/
def abort : FeedM Queue Unit := modifyStream ({ · with aborted := true })

/-- Installs an observer in the place of any earlier one. -/
def observe (observer : ObserverId) : FeedM Queue Unit :=
  modifyStream ({ · with observer := some observer })

def setResponseHead (head : ResponseHead) : FeedM Queue Unit :=
  modifyStream ({ · with responseHead := some head })

def takeResponseHead : FeedM Queue (Option ResponseHead) := do
  let head := (← get).stream.responseHead
  modifyStream ({ · with responseHead := none })
  pure head

end Feed

end Reassembly
