namespace Script

/-- Where printed text goes: all bytes so far, and how the place it stands for can fail. -/
structure Sink where
  written : ByteArray
  /-- How many bytes it takes in all. -/
  capacity? : Option Nat
  flushFails : Bool

inductive Sink.Failure where
  | full
  | flush
  deriving DecidableEq, Repr

def Sink.Failure.message : Failure → String
  | full => "sink full"
  | flush => "flush failed"

namespace Sink

def unbounded : Sink := ⟨.empty, none, false⟩

/-- Takes the bytes that fit. It is a failure if some do not. -/
def write (sink : Sink) (text : String) : Except Failure Unit × Sink :=
  let bytes := text.toUTF8
  match sink.capacity? with
  | none => (.ok (), { sink with written := sink.written ++ bytes })
  | some capacity =>
    let room := capacity - sink.written.size
    let outcome := if bytes.size ≤ room then .ok () else .error .full
    (outcome, { sink with written := sink.written ++ bytes.extract 0 room })

def flush (sink : Sink) : Except Failure Unit :=
  if sink.flushFails then .error .flush else .ok ()

def writeLine (sink : Sink) (text : String) : Except Failure Unit × Sink :=
  match sink.write text with
  | (.error failure, sink) => (.error failure, sink)
  | (.ok (), sink) =>
    match sink.write "\n" with
    | (.error failure, sink) => (.error failure, sink)
    | (.ok (), sink) => (sink.flush, sink)

/-- The text of some bytes. What is left of a character cut off at the end shows as U+FFFD. -/
def decode (bytes : ByteArray) : String :=
  let cut (n : Nat) := String.fromUTF8? (bytes.extract 0 (bytes.size - n))
  match cut 0 with
  | some text => text
  | none => (([1, 2, 3].findSome? cut).getD "") ++ "\uFFFD"

def textFrom (sink : Sink) (start : Nat) : String :=
  decode (sink.written.extract start sink.written.size)

def text (sink : Sink) : String :=
  sink.textFrom 0

end Sink
end Script
