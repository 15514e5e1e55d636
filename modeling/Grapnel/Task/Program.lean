import Grapnel.Task.Scheduler

namespace Grapnel

namespace Task

/-- An argument of a task: one that it was scheduled with, or the time that it waited. -/
inductive Argument (Value : Type) where
  | given (v : Value)
  | elapsed (nanoseconds : Nat)
deriving Inhabited

/-- Coroutines are numbered from zero; functions are named. -/
inductive Request (Value : Type) where
  | schedule (kind : Kind) (body : Body Nat String) (args : List Value) (now delay : Nat)
  | cancel (id : TaskId)
  | get (id : TaskId)
  | states (ids : List TaskId)
  | length
  | nextDue
  | clear
deriving Inhabited

inductive Answer where
  | scheduled (id : TaskId)
  | cancelled (found : Bool)
  | task (found : Option (TaskId × Kind × Nat))
  | states (found : List (Option State))
  | length (count : Nat)
  | due (time : Option Nat)
  | cleared
deriving Inhabited

inductive Ending where
  | yield
  | fail (message : String)
  | finish
deriving Inhabited

structure Step (Value : Type) where
  requests : List (Request Value)
  ending : Ending
deriving Inhabited

structure LogEntry (Value : Type) where
  thread : Nat
  program : String
  args : List (Argument Value)
  answers : List Answer
deriving Inhabited

/-- The coroutines made so far, each with its program's name and the steps that are left. -/
structure Stage (Value : Type) where
  programs : List (String × List (Step Value))
  threads : List (String × List (Step Value))
  scheduler : Scheduler Nat String (Argument Value)
  log : List (LogEntry Value)

end Task

namespace Scheduler

variable {Value : Type}

def ask (s : Scheduler Nat String (Task.Argument Value)) :
    Task.Request Value → Task.Answer × Scheduler Nat String (Task.Argument Value)
  | .schedule kind body args now delay =>
    let (id, s) := s.schedule kind body (args.map .given) now delay
    (.scheduled id, s)
  | .cancel id =>
    let (found, s) := s.cancel id
    (.cancelled found, s)
  | .get id => (.task ((s.get? id).map fun t => (t.id, t.kind, t.due)), s)
  | .states ids => (.states (ids.map s.state?), s)
  | .length => (.length s.length, s)
  | .nextDue => (.due s.nextDue?, s)
  | .clear => (.cleared, s.clear)

def askAll (s : Scheduler Nat String (Task.Argument Value)) :
    List (Task.Request Value) →
      List Task.Answer × Scheduler Nat String (Task.Argument Value)
  | [] => ([], s)
  | r :: rs =>
    let (a, s) := s.ask r
    let (as, s) := s.askAll rs
    (a :: as, s)

end Scheduler

namespace Task.Stage

variable {Value : Type}

def ofPrograms (programs : List (String × List (Step Value))) : Stage Value :=
  ⟨programs, [], .empty, []⟩

def ask (s : Stage Value) (r : Request Value) : Answer × Stage Value :=
  let (a, scheduler) := s.scheduler.ask r
  (a, { s with scheduler })

/-- Makes a coroutine for a function; there has to be a program of that name. -/
def create (s : Stage Value) (name : String) : Except String Nat × Stage Value :=
  match s.programs.lookup name with
  | some steps => (.ok s.threads.length, { s with threads := s.threads ++ [(name, steps)] })
  | none => (.error ("cannot create " ++ name), s)

def isResumable (s : Stage Value) (thread : Nat) : Bool :=
  match s.threads[thread]? with
  | some (_, _ :: _) => true
  | _ => false

/-- Carries out the next step of a coroutine. -/
def resume (s : Stage Value) (thread : Nat) (args : List (Argument Value)) :
    Except String Unit × Stage Value :=
  match s.threads[thread]? with
  | some (name, step :: rest) =>
    let (answers, scheduler) := s.scheduler.askAll step.requests
    let (result, left) : Except String Unit × List (Step Value) :=
      match step.ending with
      | .yield => (.ok (), rest)
      | .fail message => (.error message, [])
      | .finish => (.ok (), [])
    (result, { s with
      threads := s.threads.set thread (name, left)
      scheduler
      log := s.log ++ [⟨thread, name, args, answers⟩] })
  | _ => (.ok (), s)

def coroutines : Coroutines (Stage Value) Nat String (Argument Value) String where
  scheduler s := s.scheduler
  setScheduler scheduler s := { s with scheduler }
  create name s := s.create name
  isResumable thread s := s.isResumable thread
  resume thread args s := s.resume thread args
  elapsed nanoseconds := .elapsed nanoseconds

/-- One tick, with the log of what its steps did. -/
def tick (s : Stage Value) (now : Nat) : TickReport String × List (LogEntry Value) × Stage Value :=
  let (report, s) := coroutines.runReady now { s with log := [] }
  (report, s.log, s)

end Task.Stage

end Grapnel
