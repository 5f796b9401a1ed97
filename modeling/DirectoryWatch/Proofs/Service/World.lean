import DirectoryWatch.Service

/-!
# A service among others

A service, its backend and the caller who owns it. The caller is in one call at a time. A stop and a
drop last until the worker can be waited for, and meanwhile all others go on: the worker takes its
steps or what it calls panics, messages are sent, the backend changes.
-/

namespace DirectoryWatch

open Native (Backend Message)

inductive Caller where
  | free
  /-- In a stop, waiting for the worker. -/
  | stopping
  | dropping
  /-- The service was dropped. -/
  | gone
  deriving DecidableEq

structure World (State : Type) where
  service : Service
  backend : State
  caller : Caller

namespace World

inductive Call where
  | start (disk : Disk)
  | requestStop
  | stop
  | state
  | rethrow
  | pop
  | drop

inductive Act (State : Type) where
  | call (call : Call)
  /-- A stop or a drop has waited for the worker, and comes to its end. -/
  | join
  | work (around : Surroundings)
  | send (ticket : Nat) (message : Message)
  /-- The backend changes by itself. -/
  | change (backend : State)
  /-- Something that the worker calls panics, wherever the worker is in its loop, and leaves sessions
  as they then are. -/
  | panic (left : List Session) (text : String)

/-- Whether an act is one of the caller. -/
def Act.calls {State : Type} : Act State → Bool
  | .call _ | .join => true
  | .work _ | .send _ _ | .change _ | .panic _ _ => false

inductive Answer where
  | done
  | ending (ending : Ending)
  | state (state : ServiceState)
  | events (events : List Event)

variable {State : Type}

def make (paths : List Path) (config : Config) (backend : State) : World State :=
  ⟨.make paths config, backend, .free⟩

def state (w : World State) : ServiceState := w.service.state

/-- What a call does at once, and its answer if that is all it does. -/
def call (backend : Backend State) (w : World State) : Call → World State × Option Answer
  | .start disk =>
    let (result, service, state) := w.service.start backend disk w.backend
    ({ w with service, backend := state }, some (.ending result))
  | .requestStop => ({ w with service := w.service.requestStop }, some .done)
  | .stop => ({ w with service := w.service.requestStop, caller := .stopping }, none)
  | .state => (w, some (.state w.state))
  | .rethrow => (w, some (.ending w.service.rethrow))
  | .pop =>
    let (events, service) := w.service.pop
    ({ w with service }, some (.events events))
  | .drop => ({ w with service := w.service.requestStop, caller := .dropping }, none)

def join (w : World State) : World State × Option Answer :=
  if w.service.isJoinable then
    match w.caller with
    | .stopping =>
      ({ w with service := w.service.joined, caller := .free },
        some (.ending w.service.joined.rethrow))
    | .dropping => ({ w with service := w.service.joined, caller := .gone }, some .done)
    | .free | .gone => (w, none)
  else (w, none)

/-- The backend, and with it the handles, after a change. -/
def change (backend : Backend State) (w : World State) (state : State) : World State :=
  { w with service := w.service.follow backend state, backend := state }

def work (backend : Backend State) (w : World State) (around : Surroundings) : World State :=
  let (service, closed) := w.service.work around
  match closed with
  | none => { w with service }
  | some h => { w with service }.change backend (backend.release h w.backend)

/-- An act, and the answer that it gives to the caller. Who is not free calls nothing. -/
def act (backend : Backend State) (w : World State) : Act State → World State × Option Answer
  | .call c => if w.caller = .free then w.call backend c else (w, none)
  | .join => w.join
  | .work around => (w.work backend around, none)
  | .send ticket m => ({ w with service := w.service.deliver ticket m }, none)
  | .change state => (w.change backend state, none)
  | .panic left text => ({ w with service := w.service.panicked left text }, none)

abbrev next (backend : Backend State) (w : World State) (a : Act State) : World State :=
  (w.act backend a).1

def run (backend : Backend State) (w : World State) (acts : List (Act State)) : World State :=
  acts.foldl (next backend) w

/-- The answer that an act gives after some others. -/
def answer (backend : Backend State) (w : World State) (acts : List (Act State)) (a : Act State) :
    Option Answer :=
  ((w.run backend acts).act backend a).2

theorem run_append (backend : Backend State) (w : World State) (acts more : List (Act State)) :
    w.run backend (acts ++ more) = (w.run backend acts).run backend more :=
  List.foldl_append

theorem run_snoc (backend : Backend State) (w : World State) (acts : List (Act State))
    (a : Act State) :
    w.run backend (acts ++ [a]) = ((w.run backend acts).act backend a).1 :=
  run_append backend w acts [a]

end World

end DirectoryWatch
