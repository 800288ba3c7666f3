import Biotope.Failure

/-!
# Engines

An engine keeps workers that evolve a pool. Its life is a sequence of events: calls that begin,
workers that are registered and then spawned or refused, workers that exit, and calls that end.
`step` says which events are possible and what they do. A call is carried out alone, but
workers may exit at any time, and a call that ends evolution waits until they have.
-/

namespace Biotope

/-! ## Crews -/

/-- The workers of one start. -/
structure Crew where
  /-- They have been told to exit. -/
  cancelled : Bool := false
  /-- In the order of spawning, each with whether it is alive. -/
  workers : List Bool := []

namespace Crew

def empty : Crew := {}

def alive (c : Crew) : Nat := c.workers.count true

def allAlive (cs : List Crew) : Nat := (cs.flatMap workers).count true

def cancel (c : Crew) : Crew := { c with cancelled := true }

def spawn (c : Crew) : Crew := { c with workers := c.workers ++ [true] }

/-- A living worker exits when it has been told to, and of a fault at any time. -/
def exits (c : Crew) (index : Nat) (fault : Option Fault) : Bool :=
  c.workers[index]? == some true && (fault.isSome || c.cancelled)

def exit (c : Crew) (index : Nat) : Crew := { c with workers := c.workers.set index false }

end Crew

/-! ## Engines and their events -/

/-- The call that is carried out. -/
inductive Activity where
  | none
  /-- The crew is not complete. If `ahead`, its next worker is registered already. -/
  | starting (crew : Nat) (wanted : UInt64) (ahead : Bool)
  /-- A worker was refused; the others have to exit. -/
  | retreating (crew : Nat) (failure : Failure)
  | stopping

structure Engine where
  evolving : Bool := false
  /-- The crews of all starts, behind one of nobody. -/
  crews : List Crew := [.empty]
  /-- The crew of the last start that was completed. -/
  held : Nat := 0
  /-- The workers that are registered. -/
  count : UInt64 := 0
  generations : Int64 := 0
  activity : Activity := .none

instance : Inhabited Engine := ⟨{}⟩

inductive EngineEvent where
  | start (wanted : UInt64)
  | registered
  | spawned
  | refused (reason : String)
  | launched
  | exited (crew index : Nat) (fault : Option Fault)
  | counted
  | stop
  | joined

abbrev Reply := Except Failure Unit

namespace Engine

def crew (e : Engine) (number : Nat) : Crew := e.crews.getD number .empty

def workers (e : Engine) : List Bool := (e.crew e.held).workers

def active (e : Engine) : Nat := e.count.toNat

def alive (e : Engine) : Nat := Crew.allAlive e.crews

/-- An event and its effect, with a reply if there is one. An event that is not possible has no
effect to speak of. -/
def step (e : Engine) : EngineEvent → Option (Engine × Option Reply)
  | .start wanted =>
    -- a call for no workers is answered without waiting for its turn
    if wanted = 0 then some (e, some (.error .noWorkers))
    else
      match e.activity with
      | .none =>
        if e.evolving then some (e, some (.ok ()))
        else some ({ e with
          crews := e.crews ++ [Crew.empty]
          generations := 0
          activity := .starting e.crews.length wanted false }, none)
      | _ => none
  | .registered =>
    match e.activity with
    | .starting crew wanted false =>
      if (e.crew crew).workers.length < wanted.toNat then
        some ({ e with count := e.count + 1, activity := .starting crew wanted true }, none)
      else none
    | _ => none
  | .spawned =>
    match e.activity with
    | .starting crew wanted true =>
      some ({ e with
        crews := e.crews.modify crew .spawn
        activity := .starting crew wanted false }, none)
    | _ => none
  | .refused reason =>
    match e.activity with
    | .starting crew _ true =>
      some ({ e with
        crews := e.crews.modify crew .cancel
        count := e.count - 1
        activity := .retreating crew (.noWorker (e.crew crew).workers.length reason) }, none)
    | _ => none
  | .launched =>
    match e.activity with
    | .starting crew wanted false =>
      if (e.crew crew).workers.length < wanted.toNat then none
      else some ({ e with evolving := true, held := crew, activity := .none }, some (.ok ()))
    | _ => none
  | .exited crew index fault =>
    if (e.crew crew).exits index fault then
      some ({ e with
        crews := e.crews.modify crew (·.exit index)
        count := e.count - 1 }, none)
    else none
  | .counted =>
    if e.alive = 0 then none else some ({ e with generations := e.generations + 1 }, none)
  | .stop =>
    match e.activity with
    | .none =>
      if e.evolving then
        some ({ e with crews := e.crews.modify e.held .cancel, activity := .stopping }, none)
      else some (e, some (.ok ()))
    | _ => none
  | .joined =>
    match e.activity with
    | .retreating crew failure =>
      if (e.crew crew).alive = 0 then
        some ({ e with activity := .none }, some (.error failure))
      else none
    | .stopping =>
      if (e.crew e.held).alive = 0 then
        some ({ e with evolving := false, activity := .none }, some (.ok ()))
      else none
    | _ => none

/-! ## Whole calls -/

/-- The engine after an event, if this is possible, and what is replied. -/
def drive (e : Engine) (event : EngineEvent) : Engine × Reply :=
  match e.step event with
  | some (e, reply) => (e, reply.getD (.ok ()))
  | none => (e, .ok ())

/-- The workers of a crew exit and are joined. -/
def dismiss (crew : Nat) (e : Engine) : Engine × Reply :=
  let e := (List.range (e.crew crew).workers.length).foldl
    (fun e index => (e.drive (.exited crew index none)).1) e
  e.drive .joined

/-- Spawns the workers that are missing. `refusal` says why a worker cannot be had. -/
def recruit (refusal : Nat → Option String) (crew : Nat) : Nat → Engine → Engine × Reply
  | 0, e => e.drive .launched
  | missing + 1, e =>
    let e := (e.drive .registered).1
    match refusal (e.crew crew).workers.length with
    | some reason => dismiss crew (e.drive (.refused reason)).1
    | none => recruit refusal crew missing (e.drive .spawned).1

def start (refusal : Nat → Option String) (wanted : Nat) (e : Engine) : Engine × Reply :=
  let wanted := UInt64.ofNat wanted
  match e.step (.start wanted) with
  | some (u, none) => recruit refusal e.crews.length wanted.toNat u
  | some (u, some reply) => (u, reply)
  | none => (e, .ok ())

/-- Stops evolution; every worker finishes its creature and exits. -/
def stop (e : Engine) : Engine :=
  match e.step .stop with
  | some (u, none) => (dismiss u.held u).1
  | some (u, some _) => u
  | none => e

/-- The system refuses a stack beyond the address space. -/
def stackRefusal (stackSize : Nat) : Option String :=
  if 1 <<< 47 ≤ stackSize then some "Resource temporarily unavailable (os error 11)" else none

/-- The settings of an engine are checked before there is one. -/
def ofSettings (s : EvolutionSettings) : Except Failure Engine :=
  match s.check? with
  | some e => .error (.settings e)
  | none => .ok {}

end Engine

end Biotope
