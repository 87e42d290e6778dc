import Reassembly.Stream.Feed

/-!
# Calls on a stream, as data

A run of a stream is a list of calls. This file lists the calls there are, says what each
one answers and does, and runs lists of them. A failed call does not end the run.
-/

namespace Reassembly

namespace Stream

/-- A call on a stream. -/
inductive Call where
  | addHeader (name value : Bytes)
  | addData (data : Bytes)
  | endHeaders
  | push
  | closeInput
  | closeOutput
  | abort
  | observe (observer : ObserverId)
  | setResponseHead (head : ResponseHead)
  | takeResponseHead
  deriving DecidableEq, Repr

/-- What a call answers when it succeeds. -/
inductive Reply where
  | done
  /-- The response head that was taken, if there was one. -/
  | head (head : Option ResponseHead)
  deriving DecidableEq, Repr

abbrev Answer := Except StreamError Reply

namespace Call

open Delivery (Sink)

variable {Queue : Type} [Sink Queue]

def program : Call → FeedM Queue Reply
  | addHeader name value => do Feed.addHeader name value; pure .done
  | addData data => do Feed.addData data; pure .done
  | endHeaders => do Feed.endHeaders; pure .done
  | push => do Feed.push; pure .done
  | closeInput => do Feed.closeInput; pure .done
  | closeOutput => do Feed.closeOutput; pure .done
  | abort => do Feed.abort; pure .done
  | observe observer => do Feed.observe observer; pure .done
  | setResponseHead head => do Feed.setResponseHead head; pure .done
  | takeResponseHead => do pure (.head (← Feed.takeResponseHead))

def run (call : Call) (feed : Feed Queue) : Answer × Feed Queue :=
  match call.program.run feed with
  | .ok reply feed => (.ok reply, feed)
  | .error error feed => (.error error, feed)

/-- Makes calls one after the other and lists their answers. -/
def runAll (calls : List Call) (feed : Feed Queue) : List Answer × Feed Queue :=
  match calls with
  | [] => ([], feed)
  | call :: later =>
      let (answer, next) := call.run feed
      let (answers, last) := runAll later next
      (answer :: answers, last)

end Call

end Stream

end Reassembly
