import Lox.Session.Command
import Lox.Native.Toolkit

/-!
# Steps of a session

What each command does to the machine of a session, and what the session replies.
-/

namespace Lox

/-- One machine, and the frames that the host has handles of. -/
structure Session where
  machine : Machine
  handles : Array FrameId
  deriving Inhabited

/-- What a host sees of a step. -/
structure Answer where
  reply : Reply
  /-- The text that the step printed to the buffer. -/
  printed : String
  /-- Whether the machine is in the frame of the globals afterwards. -/
  atTop : Bool

/-- The text that was added to a buffer. -/
def Buffer.since (before after : Buffer) : String :=
  String.ofList (after.contents.toList.drop before.contents.length)

namespace Command

def frameOf (handles : Array FrameId) (h : Handle) : Run Reply FrameId :=
  match handles[h]? with
  | some f => pure f
  | none => Run.fail .refused

def valueOf (handles : Array FrameId) (r : Ref) : Run Reply Value := do
  (Run.lookupIn (← frameOf handles r.frame) r.name).mapError .fault

def replyToUnwind (x : Run Unwind Unit) : Run Reply Reply :=
  x.continueWith fun
    | .ok () => pure .done
    | .error (.return v) => pure (.returned v)
    | .error (.error e) => pure (.error e)

def replyFrame (handles : Array FrameId) (f : FrameId) : Run Reply Reply := do
  pure (.frame handles.size f (← Run.read (·.frames.depth f)))

/-- The run of a command. Its errors are replies as well. -/
def run (host : Host) (bound : Nat) (handles : Array FrameId) : Command → Run Reply Reply
  | interpret program => do
    (Interpreter.interpret host bound program).mapError .error
    pure .done
  | report program => do
    let (whole, reports) ← Interpreter.interpretAndReport host bound program (.collected "")
    pure (.reported whole reports.text)
  | quiet program => do
    let (whole, _) ← Interpreter.interpretAndReport host bound program .ignored
    pure (.completed whole)
  | echo expr => do
    pure (.value (← (Interpreter.evaluateAndPrint host bound expr).mapError .error))
  | evaluate expr => do
    pure (.value (← (Interpreter.evaluate host bound expr).mapError .error))
  | execute stmt => replyToUnwind (Interpreter.execute host bound stmt)
  | block body frame => do
    let f ← frameOf handles frame
    replyToUnwind (Interpreter.executeIn host bound body f)
  | native tool target frame => do
    let f ← frameOf handles frame
    match Native.Toolkit.find? tool with
    | some fn =>
      let _ ← Interpreter.defineCallable f target (.native fn)
      pure .done
    | none => Run.fail .refused
  | builtins frame => do
    Interpreter.defineBuiltins (← frameOf handles frame)
    pure .done
  | function fn captured target frame => do
    let outer ← frameOf handles captured
    let f ← frameOf handles frame
    pure (.info (← Interpreter.defineCallable f target (.closure fn outer)))
  | call name args site frame => do
    match ← valueOf handles ⟨frame, name⟩ with
    | .callable f => pure (.value (← (Interpreter.call host bound f args site).mapError .error))
    | _ => pure .notCallable
  | scope frame => do
    replyFrame handles (← Run.openScope (← frameOf handles frame))
  | enclosing frame => do
    let f ← frameOf handles frame
    match ← Run.read (·.frames.enclosing? f) with
    | some g => replyFrame handles g
    | none => pure .noFrame
  | isSame first second => do
    let f ← frameOf handles first
    let g ← frameOf handles second
    pure (.same (f == g))
  | depth frame => do
    let f ← frameOf handles frame
    pure (.depth (← Run.read (·.frames.depth f)))
  | describe frame => do
    let f ← frameOf handles frame
    pure (.description (← Run.read (·.frames.describe f)))
  | define target value => do
    Run.define (← frameOf handles target.frame) target.name value
    pure .done
  | assign target value => do
    let f ← frameOf handles target.frame
    (Run.assignIn f target.name value).mapError .fault
    pure .done
  | get source => do pure (.value (← valueOf handles source))
  | info source => do pure (.info (← valueOf handles source))
  | copy source target => do
    let v ← valueOf handles source
    Run.define (← frameOf handles target.frame) target.name v
    pure .done
  | equal first second => do
    let v ← valueOf handles first
    let w ← valueOf handles second
    pure (.equal (v.same w))
  | operate op first second => do
    let v ← valueOf handles first
    let w ← valueOf handles second
    match op.apply v w with
    | .ok result => pure (.value result)
    | .error fault => pure (.fault fault)
  | lines => do pure (.lines (← Run.read (·.buffer.lines)))
  | contents => do pure (.contents (← Run.read (·.buffer.contents)))
  | clear => do
    Run.update fun m => { m with buffer := m.buffer.clear }
    pure .done
  | redirect target => do
    Run.update fun m =>
      match target with
      | .silent => { m with output := .silent }
      | .fresh => { m with output := .buffer, buffer := {} }
      | .buffer => { m with output := .buffer }
    pure .done

/-- Whether a command changes what the buffer is or holds otherwise than by printing. -/
def replacesBuffer : Command → Bool
  | clear | redirect _ => true
  | _ => false

end Command

namespace Session

/-- A new session, with or without the native functions that come with the language. -/
def start (builtins : Bool) : Session :=
  let bare : Machine := .initial
  let machine :=
    if builtins then
      match (Interpreter.defineBuiltins bare.globals : Run Empty Unit) bare with
      | .ended _ m => m
      | .exhausted => bare
    else bare
  ⟨machine, #[bare.globals]⟩

/-- Carry out one command. There is no answer when the bound on the work does not suffice. -/
def step (host : Host) (bound : Nat) (command : Command) (s : Session) : Option (Answer × Session) :=
  let handles := s.handles
  let before := s.machine.buffer
  match command.run host bound handles s.machine with
  | .exhausted => none
  | .ended r machine =>
    let reply := match r with
      | .ok reply | .error reply => reply
    let handles := match reply with
      | .frame _ f _ => handles.push f
      | _ => handles
    let printed := if command.replacesBuffer then "" else before.since machine.buffer
    some (⟨reply, printed, machine.current == machine.globals⟩, ⟨machine, handles⟩)

end Session

end Lox
