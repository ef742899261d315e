import InfoScreen.Proofs.Pipeline

/-!
# Runs of the memory port

Any steps can be tried on an empty port, one after the other and in any order.  Of such a run it is
enough to know which requests and releases were accepted: they take turns, the byte in the port is
that of a request which no release has followed, and this decides what the port answers next.
-/

namespace InfoScreen.Pipeline

structure Tried where
  step : Step
  answer : Outcome (Option Nat)

def tryStep (port : Pipeline) (step : Step) : Tried := ⟨step, (port.step step).1⟩

def after (port : Pipeline) (steps : List Step) : Pipeline :=
  steps.foldl (fun port step ↦ (port.step step).2) port

def history (port : Pipeline) : List Step → List Tried
  | [] => []
  | step :: rest => port.tryStep step :: history (port.step step).2 rest

def Step.isIssue : Step → Bool
  | .issue _ _ => true
  | _ => false

def Step.isLow : Step → Bool
  | .low _ _ => true
  | _ => false

namespace Tried

def requests (tried : Tried) : Bool := tried.answer.toBool && tried.step.isIssue

/-- An accepted low nibble, which releases the port. -/
def retires (tried : Tried) : Bool := tried.answer.toBool && tried.step.isLow

end Tried

def moves (past : List Tried) : List Tried :=
  past.filter fun tried ↦ tried.requests || tried.retires

/-- The byte has been requested, and nothing has been requested or released since. -/
def Waiting (past : List Tried) (flight : Flight) : Prop :=
  ∃ tried, (moves past).getLast? = some tried ∧ tried.step = .issue flight.slot flight.offset

/-- Accepted requests and releases take turns, and a request comes first. -/
def TakesTurns (past : List Tried) : Prop :=
  ∀ i tried, (moves past)[i]? = some tried →
    if i % 2 = 0 then tried.requests = true else tried.retires = true

/-- The port has kept to the protocol in a run, and whatever is tried next it will. -/
structure Obeys (past : List Tried) (port : Pipeline) : Prop where
  takesTurns : TakesTurns past
  inFlight : ∀ flight, port.inFlight = some flight ↔ Waiting past flight
  faultless : ∀ step fault, (port.step step).1 ≠ halt fault
  refused : ∀ step failure, (port.step step).1 = .error failure →
    (port.step step).2.inFlight = port.inFlight
  high_keeps : ∀ slot offset, (port.step (.high slot offset)).2.inFlight = port.inFlight
  drain_keeps : ∀ slot, (port.step (.drain slot)).2.inFlight = port.inFlight
  issue : ∀ slot offset answer, (port.step (.issue slot offset)).1 = .ok answer ↔
    answer = none ∧ ¬∃ flight, Waiting past flight
  /-- A nibble is shown of the byte that waits, from a while after its request on, and the answer is
  the slot of the request. -/
  high : ∀ slot offset answer, (port.step (.high slot offset)).1 = .ok answer ↔
    ∃ readSlot, answer = some readSlot ∧ Waiting past ⟨readSlot, offset⟩ ∧ readSlot + 1 ≤ slot
  low : ∀ slot offset answer, (port.step (.low slot offset)).1 = .ok answer ↔
    ∃ readSlot, answer = some readSlot ∧ Waiting past ⟨readSlot, offset⟩ ∧ readSlot + 2 ≤ slot
  drain : ∀ slot answer, (port.step (.drain slot)).1 = .ok answer ↔
    answer = none ∧ past.countP Tried.requests = past.countP Tried.retires

/-! ## One step -/

/-- What a step that is tried does to the port: only an accepted request, on an empty port, and an
accepted release, of the byte in flight, change it. -/
inductive Effect (port : Pipeline) (tried : Tried) : Pipeline → Prop
  | kept (hrequests : tried.requests = false) (hretires : tried.retires = false) :
      Effect port tried port
  | requested (slot : Nat) (offset : UInt32) (hstep : tried.step = .issue slot offset)
      (hrequests : tried.requests = true) (hretires : tried.retires = false)
      (hempty : port.inFlight = none) : Effect port tried ⟨some ⟨slot, offset⟩⟩
  | retired (flight : Flight) (hlow : tried.step.isIssue = false)
      (hrequests : tried.requests = false) (hretires : tried.retires = true)
      (hflight : port.inFlight = some flight) : Effect port tried {}

section Step

variable {port : Pipeline} {slot : Nat} {offset : UInt32} {answer : Option Nat}

theorem step_issue {issued : Outcome Unit} {next : Pipeline}
    (h : port.issue slot offset = (issued, next)) :
    port.step (.issue slot offset) = (issued.map fun _ ↦ none, next) := by
  rw [step, h]

theorem step_low {shown : Outcome Nat} {next : Pipeline}
    (h : port.low slot offset = (shown, next)) :
    port.step (.low slot offset) = (shown.map some, next) := by
  rw [step, h]

theorem step_issue_eq_ok_iff :
    (port.step (.issue slot offset)).1 = .ok answer ↔ answer = none ∧ port.inFlight = none := by
  rcases hissue : port.issue slot offset with ⟨issued, next⟩
  rw [step_issue hissue, Outcome.map_eq_ok]
  constructor
  · rintro ⟨⟨⟩, rfl, rfl⟩
    exact ⟨rfl, (issue_eq_ok_iff.mp hissue).1⟩
  · rintro ⟨rfl, hempty⟩
    rw [issue_eq_ok_iff.mpr ⟨hempty, rfl⟩] at hissue
    exact ⟨(), (Prod.mk.inj hissue).1.symm, rfl⟩

theorem step_high_eq_ok_iff :
    (port.step (.high slot offset)).1 = .ok answer ↔ ∃ readSlot, answer = some readSlot ∧
      port.inFlight = some ⟨readSlot, offset⟩ ∧ readSlot + highLatency < UInt64.size ∧
        readSlot + highLatency ≤ slot := by
  rw [step, Outcome.map_eq_ok]
  simp only [high_eq_ok_iff]
  exact exists_congr fun readSlot ↦ and_comm.trans (and_congr_left fun _ ↦ eq_comm)

theorem step_low_eq_ok_iff :
    (port.step (.low slot offset)).1 = .ok answer ↔ ∃ readSlot, answer = some readSlot ∧
      port.inFlight = some ⟨readSlot, offset⟩ ∧ readSlot + lowLatency < UInt64.size ∧
        readSlot + lowLatency ≤ slot := by
  rcases hlow : port.low slot offset with ⟨shown, next⟩
  rw [step_low hlow, Outcome.map_eq_ok]
  constructor
  · rintro ⟨readSlot, rfl, rfl⟩
    obtain ⟨hflight, hword, hslot, -⟩ := low_eq_ok_iff.mp hlow
    exact ⟨readSlot, rfl, hflight, hword, hslot⟩
  · rintro ⟨readSlot, rfl, hflight, hword, hslot⟩
    rw [low_eq_ok_iff.mpr ⟨hflight, hword, hslot, rfl⟩] at hlow
    exact ⟨readSlot, (Prod.mk.inj hlow).1.symm, rfl⟩

theorem step_drain_eq_ok_iff :
    (port.step (.drain slot)).1 = .ok answer ↔ answer = none ∧ port.inFlight = none := by
  rw [step, Outcome.map_eq_ok]
  constructor
  · rintro ⟨⟨⟩, hdrain, rfl⟩
    exact ⟨rfl, congrArg inFlight (drain_eq_ok_iff.mp hdrain)⟩
  · rintro ⟨rfl, hempty⟩
    exact ⟨(), drain_eq_ok_iff.mpr (congrArg mk hempty), rfl⟩

/-- A refused step changes nothing. -/
theorem step_snd_of_error {step : Step} {failure : Failure}
    (h : (port.step step).1 = .error failure) : (port.step step).2 = port := by
  cases step with
  | issue slot offset =>
    rcases hissue : port.issue slot offset with ⟨issued, next⟩
    rw [step_issue hissue] at h ⊢
    obtain rfl := Outcome.map_eq_error.mp h
    exact issue_of_error hissue
  | high slot offset => rfl
  | low slot offset =>
    rcases hlow : port.low slot offset with ⟨shown, next⟩
    rw [step_low hlow] at h ⊢
    obtain rfl := Outcome.map_eq_error.mp h
    exact low_of_error hlow
  | drain slot => rfl

theorem effect_step (port : Pipeline) (step : Step) :
    Effect port (port.tryStep step) (port.step step).2 := by
  cases step with
  | issue slot offset =>
    rcases hissue : port.issue slot offset with ⟨issued, next⟩
    rw [tryStep, step_issue hissue]
    cases issued with
    | ok =>
      obtain ⟨hempty, rfl⟩ := issue_eq_ok_iff.mp hissue
      exact .requested slot offset rfl rfl rfl hempty
    | error failure =>
      rw [issue_of_error hissue]
      exact .kept rfl rfl
  | high slot offset => exact .kept (Bool.and_false _) (Bool.and_false _)
  | low slot offset =>
    rcases hlow : port.low slot offset with ⟨shown, next⟩
    rw [tryStep, step_low hlow]
    cases shown with
    | ok readSlot =>
      obtain ⟨hflight, -, -, rfl⟩ := low_eq_ok_iff.mp hlow
      exact .retired _ rfl rfl rfl hflight
    | error failure =>
      rw [low_of_error hlow]
      exact .kept rfl rfl
  | drain slot => exact .kept (Bool.and_false _) (Bool.and_false _)

/-- A byte that was not requested at the very end of the range of slots can be asked for. -/
theorem fetched_ne_halt {latency : Nat} (hlatency : latency ≤ lowLatency)
    (hword : ∀ flight, port.inFlight = some flight → flight.slot + lowLatency < UInt64.size)
    (slot : Nat) (offset : UInt32) (fault : Fault) :
    port.fetched slot offset latency ≠ halt fault := by
  unfold fetched
  cases hflight : port.inFlight with
  | none => exact Outcome.refuse_ne_halt _ _
  | some flight =>
    have hroom : ¬UInt64.size ≤ flight.slot + latency := by
      have hslot := hword flight hflight
      omega
    dsimp only [violate]
    rw [if_neg hroom, ne_eq, Outcome.guard_refuse_eq_halt, Outcome.guard_refuse_eq_halt]
    rintro ⟨-, -, hfault⟩
    exact Outcome.pure_ne_halt _ _ hfault

theorem step_ne_halt
    (hword : ∀ flight, port.inFlight = some flight → flight.slot + lowLatency < UInt64.size)
    (step : Step) (fault : Fault) : (port.step step).1 ≠ halt fault := by
  cases step with
  | issue slot offset =>
    unfold Pipeline.step issue
    cases port.inFlight with
    | none => exact Outcome.ok_ne_halt _ _
    | some flight => exact Outcome.refuse_ne_halt _ _
  | high slot offset =>
    unfold Pipeline.step high
    rw [ne_eq, Outcome.map_eq_halt, Outcome.map_eq_halt]
    exact fetched_ne_halt (by decide) hword slot offset fault
  | low slot offset =>
    change (port.low slot offset).1.map some ≠ halt fault
    rw [low_fst, ne_eq, Outcome.map_eq_halt, Outcome.map_eq_halt]
    exact fetched_ne_halt (Nat.le_refl _) hword slot offset fault
  | drain slot =>
    unfold Pipeline.step drain
    cases port.inFlight with
    | none => exact Outcome.ok_ne_halt _ _
    | some flight => exact Outcome.refuse_ne_halt _ _

end Step

/-! ## A whole run -/

section Run

variable {past : List Tried} {tried : Tried} {port : Pipeline} {flight : Flight}

theorem moves_append_of_kept (hrequests : tried.requests = false)
    (hretires : tried.retires = false) : moves (past ++ [tried]) = moves past := by
  simp [moves, hrequests, hretires]

theorem moves_append_of_moved (h : (tried.requests || tried.retires) = true) :
    moves (past ++ [tried]) = moves past ++ [tried] := by
  simp [moves, h]

theorem waiting_append_of_moved (h : (tried.requests || tried.retires) = true) :
    Waiting (past ++ [tried]) flight ↔ tried.step = .issue flight.slot flight.offset := by
  rw [Waiting, moves_append_of_moved h, List.getLast?_concat]
  simp

theorem TakesTurns.append (h : TakesTurns past)
    (hmoved : (tried.requests || tried.retires) = true)
    (hturn : if (moves past).length % 2 = 0 then tried.requests = true else tried.retires = true) :
    TakesTurns (past ++ [tried]) := by
  intro i other hother
  rw [moves_append_of_moved hmoved, List.getElem?_append] at hother
  split at hother
  next => exact h i other hother
  next hi =>
    obtain ⟨hlast, hsame⟩ := List.getElem?_eq_some_iff.mp hother
    rw [List.length_singleton] at hlast
    obtain rfl : i = (moves past).length := by omega
    obtain rfl : tried = other := by simpa using hsame
    exact hturn

def held (port : Pipeline) : Nat := if port.inFlight.isSome then 1 else 0

structure Tracked (past : List Tried) (port : Pipeline) : Prop where
  takesTurns : TakesTurns past
  inFlight : ∀ flight, port.inFlight = some flight ↔ Waiting past flight
  count : past.countP Tried.requests = past.countP Tried.retires + port.held
  length_moves : (moves past).length = 2 * past.countP Tried.retires + port.held
  word : ∀ flight, port.inFlight = some flight → flight.slot + lowLatency < UInt64.size

namespace Tracked

theorem start : Tracked [] {} where
  takesTurns := nofun
  inFlight := by
    intro flight
    refine ⟨nofun, ?_⟩
    rintro ⟨tried, hlast, -⟩
    cases hlast
  count := rfl
  length_moves := rfl
  word := nofun

/-- A step that changes nothing does not count. -/
theorem kept (h : Tracked past port) (hrequests : tried.requests = false)
    (hretires : tried.retires = false) : Tracked (past ++ [tried]) port := by
  have hmoves : moves (past ++ [tried]) = moves past := moves_append_of_kept hrequests hretires
  constructor
  case takesTurns => simpa only [TakesTurns, hmoves] using h.takesTurns
  case inFlight => simpa only [Waiting, hmoves] using h.inFlight
  case count => simpa [hrequests, hretires] using h.count
  case length_moves => simpa [hmoves, hretires] using h.length_moves
  case word => exact h.word

theorem request (h : Tracked past port) {slot : Nat} {offset : UInt32}
    (hstep : tried.step = .issue slot offset) (hrequests : tried.requests = true)
    (hretires : tried.retires = false) (hempty : port.inFlight = none)
    (hslot : slot + lowLatency < UInt64.size) :
    Tracked (past ++ [tried]) ⟨some ⟨slot, offset⟩⟩ := by
  have hmoved : (tried.requests || tried.retires) = true := by rw [hrequests, Bool.true_or]
  have hheld : port.held = 0 := by simp [held, hempty]
  have hcount := h.count
  have hlength := h.length_moves
  rw [hheld] at hcount hlength
  constructor
  case takesTurns =>
    apply h.takesTurns.append hmoved
    rw [if_pos (by omega)]
    exact hrequests
  case inFlight =>
    intro flight
    rw [waiting_append_of_moved hmoved, hstep, Option.some.injEq, Step.issue.injEq,
      Flight.mk.injEq]
  case count => simp [hrequests, hretires, held, hcount]
  case length_moves => simp [moves_append_of_moved hmoved, hretires, held, hlength]
  case word =>
    intro flight hflight
    obtain rfl := Option.some.inj hflight
    exact hslot

theorem release (h : Tracked past port) (hlow : tried.step.isIssue = false)
    (hrequests : tried.requests = false) (hretires : tried.retires = true)
    (hflight : port.inFlight = some flight) : Tracked (past ++ [tried]) {} := by
  have hmoved : (tried.requests || tried.retires) = true := by rw [hretires, Bool.or_true]
  have hheld : port.held = 1 := by simp [held, hflight]
  have hcount := h.count
  have hlength := h.length_moves
  rw [hheld] at hcount hlength
  constructor
  case takesTurns =>
    apply h.takesTurns.append hmoved
    rw [if_neg (by omega)]
    exact hretires
  case inFlight =>
    intro other
    rw [waiting_append_of_moved hmoved]
    refine ⟨nofun, fun hissue ↦ ?_⟩
    rw [hissue] at hlow
    cases hlow
  case count => simp [hrequests, hretires, held, hcount]
  case length_moves =>
    rw [moves_append_of_moved hmoved, List.length_append, hlength, List.countP_append]
    simp [hretires, held]
    omega
  case word => nofun

/-- One more step. -/
theorem step (h : Tracked past port) {step : Step}
    (hslot : ∀ slot offset, step = .issue slot offset → slot + lowLatency < UInt64.size) :
    Tracked (past ++ [port.tryStep step]) (port.step step).2 := by
  have heffect := port.effect_step step
  generalize (port.step step).2 = next at heffect
  cases heffect with
  | kept hrequests hretires => exact h.kept hrequests hretires
  | requested slot offset hstep hrequests hretires hempty =>
    exact h.request hstep hrequests hretires hempty (hslot slot offset hstep)
  | retired flight hlow hrequests hretires hflight =>
    exact h.release hlow hrequests hretires hflight

/-- All steps of a run. -/
theorem run {steps : List Step} (h : Tracked past port)
    (hslots : ∀ slot offset, .issue slot offset ∈ steps → slot + lowLatency < UInt64.size) :
    Tracked (past ++ port.history steps) (port.after steps) := by
  induction steps generalizing past port with
  | nil =>
    rw [history, List.append_nil]
    exact h
  | cons first rest ih =>
    have hfirst : Tracked (past ++ [port.tryStep first]) (port.step first).2 := by
      apply h.step
      rintro slot offset rfl
      exact hslots slot offset List.mem_cons_self
    rw [history, List.append_cons]
    exact ih hfirst fun slot offset hissue ↦ hslots slot offset (List.mem_cons_of_mem _ hissue)

theorem not_waiting_iff (h : Tracked past port) :
    (¬∃ flight, Waiting past flight) ↔ port.inFlight = none := by
  simp only [← h.inFlight, not_exists, Option.eq_none_iff_forall_ne_some, ne_eq]

theorem count_eq_iff (h : Tracked past port) :
    past.countP Tried.requests = past.countP Tried.retires ↔ port.inFlight = none := by
  rw [h.count, held]
  cases port.inFlight <;> simp

/-- The answers of the port are decided by the accepted steps alone. -/
theorem obeys (h : Tracked past port) : Obeys past port where
  takesTurns := h.takesTurns
  inFlight := h.inFlight
  faultless := step_ne_halt h.word
  refused := fun _ _ hrefused ↦ congrArg Pipeline.inFlight (step_snd_of_error hrefused)
  high_keeps := fun _ _ ↦ rfl
  drain_keeps := fun _ ↦ rfl
  issue := by
    intro slot offset answer
    rw [step_issue_eq_ok_iff, h.not_waiting_iff]
  high := by
    intro slot offset answer
    rw [step_high_eq_ok_iff]
    refine exists_congr fun readSlot ↦ and_congr_right fun _ ↦ ?_
    rw [← h.inFlight]
    refine and_congr_right fun hflight ↦ and_iff_right ?_
    exact Nat.lt_of_succ_lt (h.word _ hflight)
  low := by
    intro slot offset answer
    rw [step_low_eq_ok_iff]
    refine exists_congr fun readSlot ↦ and_congr_right fun _ ↦ ?_
    rw [← h.inFlight]
    exact and_congr_right fun hflight ↦ and_iff_right (h.word _ hflight)
  drain := by
    intro slot answer
    rw [step_drain_eq_ok_iff, h.count_eq_iff]

end Tracked

end Run

/-- In every run that starts with an empty port, accepted requests and releases take turns, refused
steps change nothing, and what is accepted next depends on the accepted steps so far only. -/
theorem obeys_of_run (steps : List Step)
    (hslots : ∀ slot offset, .issue slot offset ∈ steps → slot + lowLatency < UInt64.size) :
    Obeys (history {} steps) (after {} steps) :=
  (Tracked.start.run hslots).obeys

/-- A run with refused steps of all kinds, the last of them while a second byte is in flight. -/
def unrulyRun : List Step :=
  [.low 3 7, .issue 5 7, .issue 6 8, .high 5 7, .high 9 8, .low 6 7, .high 6 7, .low 7 7, .drain 7,
    .issue 7 8, .drain 8]

theorem obeys_of_run_unruly :
    (∀ slot offset, .issue slot offset ∈ unrulyRun → slot + lowLatency < UInt64.size) ∧
      (history {} unrulyRun).map (fun tried ↦ tried.answer.toBool) =
        [false, true, false, false, false, false, true, true, true, true, false] ∧
      Obeys (history {} unrulyRun) (after {} unrulyRun) := by
  have hslots : ∀ slot offset, .issue slot offset ∈ unrulyRun →
      slot + lowLatency < UInt64.size := by
    intro slot offset hissue
    have hall : ∀ step ∈ unrulyRun, ∀ slot offset, step = .issue slot offset → slot ≤ 7 := by
      simp [unrulyRun]
    have hslot := hall _ hissue slot offset rfl
    simp only [lowLatency, UInt64.size]
    omega
  exact ⟨hslots, by decide, obeys_of_run unrulyRun hslots⟩

end InfoScreen.Pipeline
