import CallBundle.Event

/-!
Views of the events of a run: what was asked of collaborators, what was submitted, what was warned of,
and what happened apart from forcing or collecting. What is submitted is among what is asked:
`submitted_requests`.
-/

namespace CallBundle

def Event.isLog : Event → Bool
  | .log _ => true
  | _ => false

/-- What collaborators were asked, without what was logged. -/
def requests (events : List Event) : List Event := events.filter fun e => !e.isLog

@[simp] theorem requests_append (events events' : List Event) :
    requests (events ++ events') = requests events ++ requests events' :=
  List.filter_append ..

def Event.isForce : Event → Bool
  | .force _ => true
  | _ => false

/-- What happened apart from forcing. -/
def unforced (events : List Event) : List Event := events.filter fun e => !e.isForce

@[simp] theorem unforced_append (events events' : List Event) :
    unforced (events ++ events') = unforced events ++ unforced events' :=
  List.filter_append ..

def Event.submission? : Event → Option (Action × Gas)
  | .submit action gas => some (action, gas)
  | _ => none

/-- The actions submitted, each with its gas settings. -/
def submitted (events : List Event) : List (Action × Gas) := events.filterMap Event.submission?

@[simp] theorem submitted_append (events events' : List Event) :
    submitted (events ++ events') = submitted events ++ submitted events' :=
  List.filterMap_append

theorem submitted_requests (events : List Event) :
    submitted (requests events) = submitted events := by
  induction events with
  | nil => rfl
  | cons e events ih =>
    cases e with
    | submit action gas => exact congrArg ((action, gas) :: ·) ih
    | lookup | force | compute | log => exact ih

def Event.warning? : Event → Option LogLine
  | .log line => if line.level = .warn then some line else none
  | _ => none

/-- The lines logged as warnings. -/
def warnings (events : List Event) : List LogLine := events.filterMap Event.warning?

@[simp] theorem warnings_append (events events' : List Event) :
    warnings (events ++ events') = warnings events ++ warnings events' :=
  List.filterMap_append

def LogLine.isCollecting : LogLine → Bool
  | .producerDone .. | .aggregateDone .. => true
  | _ => false

/-- The lines that collecting itself logs. -/
def Event.isCollecting : Event → Bool
  | .log line => line.isCollecting
  | _ => false

def Event.AllCollecting (events : List Event) : Prop := ∀ e ∈ events, e.isCollecting = true

theorem Event.allCollecting_log {line : LogLine} (h : line.isCollecting = true) :
    AllCollecting [.log line] :=
  List.forall_mem_singleton.mpr h

theorem Event.AllCollecting.append {events events' : List Event} (h : AllCollecting events)
    (h' : AllCollecting events') : AllCollecting (events ++ events') :=
  List.forall_mem_append.mpr ⟨h, h'⟩

def withoutCollecting (events : List Event) : List Event := events.filter fun e => !e.isCollecting

@[simp] theorem withoutCollecting_append (events events' : List Event) :
    withoutCollecting (events ++ events') = withoutCollecting events ++ withoutCollecting events' :=
  List.filter_append ..

theorem withoutCollecting_of_allCollecting {events : List Event}
    (h : Event.AllCollecting events) : withoutCollecting events = [] := by
  rw [withoutCollecting, List.filter_eq_nil_iff]
  intro e he
  simp [h e he]

end CallBundle
