import Teletype.Session.Store

/-!
# Operations

What can be done with the managers and sessions of a store, one operation at a time.
-/

namespace Teletype

/-- An operation on a manager, on a session, or on the variables that children inherit. -/
inductive Operation where
  | start (manager : Nat) (restricted : Bool) (command : String)
  | stop (manager : Nat)
  | resize (manager : Nat) (columns rows : Int)
  | create (command : List String) (environment : Environment)
  | startSession (session : Nat)
  | resizeSession (session : Nat) (columns rows : Int)
  | close (session : Nat)
  | write (session : Nat) (text : String) (answers : List Answer)
  | scope (session : Nat)
  | handle (session : Nat)
  | stream (session : Nat)
  | sameStream (session : Nat)
  | child (session : Nat)
  | exitCode (session : Nat)
  | childExits (session : Nat) (code : Int)
  | waitForExit (session : Nat) (span : Span) (exit : Option (Rat × Int))
  | setEnvironment (entries : List (String × String))
  deriving Repr

/-- What an operation answers. -/
inductive Reply where
  | nothing
  | session (index : Nat)
  | number (n : Option Int)
  | flag (b : Bool)
  | scope (active : Bool)
  deriving DecidableEq, Repr

namespace Store

/-- A result without an answer. -/
def done : Except Failure Unit × Store → Except Failure Reply × Store
  | (r, st) => (r.map fun _ => .nothing, st)

/-- An answer read off a session. -/
def observe (st : Store) (k : Nat) (f : Entry → Except Fault Reply) : Except Failure Reply × Store :=
  match st.entry? k with
  | none => (.ok .nothing, st)
  | some e => (match f e with
    | .ok r => .ok r
    | .error fault => .error (.fault fault), st)

/-- The store after a change to the terminal of a session. -/
def onTerminal (st : Store) (k : Nat) (f : Terminal → Terminal) : Store :=
  match st.entry? k with
  | none => st
  | some e => st.setEntry k { e with terminal := f e.terminal }

/-- Does one operation. -/
def perform (st : Store) : Operation → Except Failure Reply × Store
  | .start m restricted command =>
    let (r, st) := st.start m restricted command
    (r.map .session, st)
  | .stop m => done (st.stop m)
  | .resize m columns rows => done (st.resize m columns rows)
  | .create command environment =>
    let (k, st) := st.create command environment none
    (.ok (.session k), st)
  | .startSession k => done (st.startSession k)
  | .resizeSession k columns rows => done (st.resizeSession k columns rows)
  | .close k => done (st.closeSession k)
  | .write k text answers => done (st.write k text answers)
  | .scope k =>
    let active := ((st.entry? k).map fun e => e.session.isActive).getD false
    let (r, st) := st.leave k
    (r.map fun _ => .scope active, st)
  | .handle k => st.observe k fun e => e.session.handle.map fun n => .number (some n)
  | .stream k => st.observe k fun e => e.session.stream.map fun n => .number (some n)
  | .sameStream k => st.observe k fun e => e.session.stream.map fun _ => .flag true
  | .child k => st.observe k fun e => .ok (.number (e.session.child.map fun n => n))
  | .exitCode k =>
    st.observe k fun e => .ok (.number (if e.session.child.isSome then (e.terminal.advance st.now).exit else none))
  | .childExits k code => (.ok .nothing, st.onTerminal k fun t => (t.advance st.now).apply st.now (.exit code))
  | .waitForExit k span exit =>
    let st := st.onTerminal k fun t => (t.advance st.now).expect st.now exit
    let (code, st) := st.waitForExit k span
    (.ok (.number code), st)
  | .setEnvironment entries => (.ok .nothing, { st with environment := st.environment.putAll entries })

end Store

end Teletype
