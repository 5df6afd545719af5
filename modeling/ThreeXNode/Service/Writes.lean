import ThreeXNode.Service.TrafficWriter

namespace ThreeXNode.Service.TrafficWriter
open Library

def Submit.locked : Submit → Bool
  | .looking | .leaving | .offering _ _ | .offered _ | .refused => true
  | _ => false

def Start.locked : Start → Bool
  | .looking | .spawning | .leaving => true
  | _ => false

def Stop.locked : Stop → Bool
  | .looking | .releasing _ | .clearing _ | .leaving => true
  | _ => false

def Loop.drains : Loop → Bool
  | .serving => false
  | .draining | .gone => true
  | .applying _ drains | .replying _ _ drains => drains

structure Guarded (s : State) : Prop where
  submits : ∀ id, (s.submits id).locked = true ↔ s.twMu = some (.submit id)
  starts : ∀ id, (s.starts id).locked = true ↔ s.twMu = some (.start id)
  stops : ∀ id, (s.stops id).locked = true ↔ s.twMu = some (.stop id)
  globals : ∃ w, s.globals = ⟨w, w, w, w⟩ ∧ ∀ v ∈ w, v < s.made
  unmade : ∀ w, s.made ≤ w → s.writers w = {}
  offering : ∀ id queue done, s.submits id = .offering queue done → queue = done ∧ done < s.made ∧
    (s.writers done).cancelled = false
  drains : ∀ w, (s.writers w).loop.drains = true → (s.writers w).cancelled = true
  gone : ∀ w, (s.writers w).loop = .gone → (s.writers w).queue = []
  closing : ∀ id w, s.submits id = .closing w → (s.writers w).loop = .gone

attribute [local grind =] Function.update_apply Submit.locked Start.locked Stop.locked Loop.drains

theorem Guarded.submit {s t : State} {id : Nat} {step : SubmitStep} (guarded : Guarded s)
    (h : submitTrafficWrite s id step = some t) : Guarded t := by
  obtain ⟨submits, starts, stops, globals, unmade, offering, drains, gone, closing⟩ := guarded
  cases step
  all_goals simp only [submitTrafficWrite, State.setSubmit, State.setWriter, State.unlock, State.begin, State.finish] at h
  case look =>
    obtain ⟨w, globals, made⟩ := globals
    cases w with
    | none =>
        rw [globals] at h
        split at h <;> cases h
        constructor <;> grind -ring -linarith -order -ac
    | some w =>
        rw [globals] at h
        simp only at h
        split at h
        · split at h <;> cases h <;> constructor <;> grind -ring -linarith -order -ac
        · cases h
  case send =>
    split at h
    · rename_i queue done phase
      obtain ⟨rfl, made, fresh⟩ := offering id queue done phase
      split at h
      · cases h
        constructor <;> grind -ring -linarith -order -ac
      · cases h
    · cases h
  case notice =>
    split at h
    · split at h
      · cases h
        constructor <;> grind -ring -linarith -order -ac
      · cases h
    · cases h
  all_goals
    split at h
    all_goals cases h
    all_goals constructor <;> grind -ring -linarith -order -ac

theorem Guarded.start {s t : State} {id : Nat} {step : StartStep} (guarded : Guarded s)
    (h : startTrafficWriter s id step = some t) : Guarded t := by
  obtain ⟨submits, starts, stops, globals, unmade, offering, drains, gone, closing⟩ := guarded
  cases step
  all_goals simp only [startTrafficWriter, State.setStart, State.setWriter, State.unlock, State.clearTrafficWriterState] at h
  case look =>
    split at h
    · split at h
      · split at h <;> cases h <;> constructor <;> grind -ring -linarith -order -ac
      · cases h
        constructor <;> grind -ring -linarith -order -ac
    · cases h
  all_goals
    split at h
    all_goals cases h
    all_goals constructor <;> grind -ring -linarith -order -ac

theorem Guarded.stop {s t : State} {id : Nat} {step : StopStep} (guarded : Guarded s)
    (h : stopTrafficWriter s id step = some t) : Guarded t := by
  obtain ⟨submits, starts, stops, globals, unmade, offering, drains, gone, closing⟩ := guarded
  cases step
  all_goals simp only [stopTrafficWriter, State.setStop, State.setWriter, State.unlock, State.clearTrafficWriterState] at h
  case look =>
    obtain ⟨w, globals, made⟩ := globals
    rw [globals] at h
    cases w with
    | none =>
        split at h <;> cases h
        constructor <;> grind -ring -linarith -order -ac
    | some w =>
        have here := made w rfl
        split at h <;> cases h
        constructor <;> grind -ring -linarith -order -ac
  case wake =>
    split at h
    · split at h
      · cases h
        constructor <;> grind -ring -linarith -order -ac
      · cases h
    · cases h
  case relock =>
    split at h
    · split at h
      · cases h
        constructor <;> grind -ring -linarith -order -ac
      · cases h
    · cases h
  case clear =>
    split at h
    · split at h <;> cases h <;> constructor <;> grind -ring -linarith -order -ac
    · cases h
  all_goals
    split at h
    all_goals cases h
    all_goals constructor <;> grind -ring -linarith -order -ac

theorem Guarded.writer {s t : State} {w : Nat} {step : WriterStep} (guarded : Guarded s)
    (h : runTrafficWriter s w step = some t) : Guarded t := by
  obtain ⟨submits, starts, stops, globals, unmade, offering, drains, gone, closing⟩ := guarded
  simp only [runTrafficWriter, State.setWriter, State.begin, State.finish] at h
  split at h
  · split at h
    all_goals try split at h
    all_goals cases h
    all_goals constructor <;> grind -ring -linarith -order -ac
  · cases h

/-! ## What becomes of a request -/

/-- The way of a request, for which `writer` is the one it was handed to. -/
inductive Stage where
  | unsent
  | inline
  | queued (writer : Nat)
  | applying (writer : Nat)
  | replying (writer : Nat) (err : Option String)
  | answered (writer : Nat) (err : Option String)
  | returned (err : Option String)

inductive View where
  | unsent
  | inline
  | accepted (writer : Nat)
  | returned (err : Option String)
  | stopped
  deriving DecidableEq

def Submit.view : Submit → View
  | .idle | .looking | .leaving | .inlining | .offering _ _ | .refused | .returned .queueFull => .unsent
  | .applying => .inline
  | .offered done | .waiting done | .closing done => .accepted done
  | .returned (.result err) => .returned err
  | .returned .stopped => .stopped

@[ext] structure Account where
  view : View
  reply : Option (Option String)
  runs : Nat
  results : List (Option String)

def State.account (s : State) (id : Nat) : Account := ⟨(s.submits id).view, s.replies id, s.runs id, s.results id⟩

def Stage.account : Stage → Account
  | .unsent => ⟨.unsent, none, 0, []⟩
  | .inline => ⟨.inline, none, 1, []⟩
  | .queued w => ⟨.accepted w, none, 0, []⟩
  | .applying w => ⟨.accepted w, none, 1, []⟩
  | .replying w err => ⟨.accepted w, none, 1, [err]⟩
  | .answered w err => ⟨.accepted w, some err, 1, [err]⟩
  | .returned err => ⟨.returned err, none, 1, [err]⟩

def Stage.hand : Stage → Option Nat
  | .applying w | .replying w _ => some w
  | _ => none

def Loop.carries (w : Nat) : Loop → Option (Nat × Stage)
  | .applying id _ => some (id, .applying w)
  | .replying id err _ => some (id, .replying w err)
  | _ => none

@[simp] theorem Loop.carries_applying (w id : Nat) (drains : Bool) :
    (Loop.applying id drains).carries w = some (id, .applying w) := rfl

@[simp] theorem Loop.carries_replying (w id : Nat) (err : Option String) (drains : Bool) :
    (Loop.replying id err drains).carries w = some (id, .replying w err) := rfl

/-- Each request is at one stage, and in a queue or in a goroutine's hands where its stage says so. -/
structure Books (s : State) (stage : Nat → Stage) : Prop where
  account : ∀ id, s.account id = (stage id).account
  nodup : ∀ w, (s.writers w).queue.Nodup
  queued : ∀ w id, id ∈ (s.writers w).queue ↔ stage id = .queued w
  hand : ∀ w id, (stage id).hand = some w → (s.writers w).loop.carries w = some (id, stage id)
  carried : ∀ w id st, (s.writers w).loop.carries w = some (id, st) → stage id = st

theorem Loop.carries_hand {w id : Nat} {st : Stage} {loop : Loop} (h : loop.carries w = some (id, st)) :
    st.hand = some w := by
  cases loop <;> cases h <;> rfl

variable {s t : State} {stage : Nat → Stage}

theorem Books.same (books : Books s stage) (accounts : ∀ id, t.account id = s.account id)
    (writers : ∀ w, (t.writers w).queue = (s.writers w).queue ∧ (t.writers w).loop = (s.writers w).loop) :
    Books t stage where
  account id := (accounts id).trans (books.account id)
  nodup w := (writers w).1 ▸ books.nodup w
  queued w := (writers w).1 ▸ books.queued w
  hand w := (writers w).2 ▸ books.hand w
  carried w := (writers w).2 ▸ books.carried w

def Stage.away (st : Stage) : Prop := st.hand = none ∧ ∀ w, st ≠ .queued w

theorem Books.call (books : Books s stage) (id : Nat) (new : Stage) (writers : t.writers = s.writers)
    (others : ∀ j, j ≠ id → t.account j = s.account j) (account : t.account id = new.account)
    (before : (stage id).away) (after : new.away) : Books t (Function.update stage id new) := by
  refine ⟨fun j => ?_, writers ▸ books.nodup, fun w j => ?_, fun w j held => ?_, fun w j st carried => ?_⟩
  all_goals by_cases same : j = id
  · subst same
    rwa [Function.update_self]
  · rw [Function.update_of_ne same, others j same]
    exact books.account j
  · subst same
    rw [Function.update_self, writers, books.queued]
    exact ⟨fun here => absurd here (before.2 w), fun here => absurd here (after.2 w)⟩
  · rw [Function.update_of_ne same, writers]
    exact books.queued w j
  · subst same
    rw [Function.update_self, after.1] at held
    cases held
  · rw [Function.update_of_ne same] at held ⊢
    exact writers ▸ books.hand w j held
  · subst same
    rw [writers] at carried
    have held := Loop.carries_hand carried
    rw [← books.carried w j st carried, before.1] at held
    cases held
  · rw [Function.update_of_ne same]
    exact books.carried w j st (writers ▸ carried)

theorem Books.pass (books : Books s stage) {w : Nat} {v : Writer} (id : Nat) (new : Stage)
    (writers : t.writers = Function.update s.writers w v) (others : ∀ j, j ≠ id → t.account j = s.account j)
    (account : t.account id = new.account) (nodup : v.queue.Nodup)
    (queue : ∀ j, j ∈ v.queue ↔ if j = id then new = .queued w else stage j = .queued w)
    (loop : ∀ j st, v.loop.carries w = some (j, st) ↔
      if j = id then st = new ∧ new.hand = some w else (s.writers w).loop.carries w = some (j, st))
    (before : ∀ u, u ≠ w → stage id ≠ .queued u ∧ (stage id).hand ≠ some u)
    (after : ∀ u, u ≠ w → new ≠ .queued u ∧ new.hand ≠ some u) : Books t (Function.update stage id new) := by
  refine ⟨fun j => ?_, fun u => ?_, fun u j => ?_, fun u j held => ?_, fun u j st carried => ?_⟩
  · by_cases same : j = id
    · subst same
      rwa [Function.update_self]
    · rw [Function.update_of_ne same, others j same]
      exact books.account j
  · rw [writers]
    by_cases own : u = w
    · subst own
      rwa [Function.update_self]
    · rw [Function.update_of_ne own]
      exact books.nodup u
  all_goals
    rw [writers] at *
    by_cases own : u = w <;> by_cases same : j = id
  · subst own same
    simpa using queue j
  · subst own
    simpa [same] using queue j
  · subst same
    simpa [own, (after u own).1] using fun here => (before u own).1 ((books.queued u j).mp here)
  · simpa [own, same] using books.queued u j
  · subst own same
    rw [Function.update_self] at held ⊢
    simpa [held] using (loop j _).mpr (by simp [held])
  · subst own
    rw [Function.update_of_ne same] at held
    simp only [Function.update_self, Function.update_of_ne same]
    exact (loop j _).mpr (by simpa [same] using books.hand u j held)
  · subst same
    rw [Function.update_self] at held
    exact absurd held (after u own).2
  · rw [Function.update_of_ne same] at held
    simpa [own, same] using books.hand u j held
  · subst own same
    rw [Function.update_self] at carried ⊢
    have here := (loop j st).mp carried
    rw [if_pos rfl] at here
    exact here.1.symm
  · subst own
    rw [Function.update_self] at carried
    rw [Function.update_of_ne same]
    exact books.carried u j st (by simpa [same] using (loop j st).mp carried)
  · subst same
    rw [Function.update_of_ne own] at carried
    have held := Loop.carries_hand carried
    rw [← books.carried u j st carried] at held
    exact absurd held (before u own).2
  · rw [Function.update_of_ne own] at carried
    rw [Function.update_of_ne same]
    exact books.carried u j st carried

theorem Books.view (books : Books s stage) (id : Nat) : (s.submits id).view = (stage id).account.view :=
  congrArg Account.view (books.account id)

theorem Books.unsent (books : Books s stage) (id : Nat) (view : (s.submits id).view = .unsent) :
    stage id = .unsent := by
  have known := books.view id
  cases now : stage id <;> simp_all [Stage.account]

theorem Books.inline (books : Books s stage) (id : Nat) (view : (s.submits id).view = .inline) :
    stage id = .inline := by
  have known := books.view id
  cases now : stage id <;> simp_all [Stage.account]

theorem Books.answered (books : Books s stage) {id w : Nat} {err : Option String}
    (view : (s.submits id).view = .accepted w) (reply : s.replies id = some err) : stage id = .answered w err := by
  have known := books.account id
  cases now : stage id <;> simp_all [State.account, Stage.account]

theorem Books.phase (books : Books s stage) {id : Nat} {phase : Submit} {twMu : Option Call}
    (view : phase.view = (s.submits id).view) : Books { s.setSubmit id phase with twMu } stage := by
  refine books.same (fun j => ?_) fun _ => ⟨rfl, rfl⟩
  by_cases same : j = id
  · subst same
    simp [State.account, State.setSubmit, view]
  · simp [State.account, State.setSubmit, same]

theorem Books.settled (guarded : Guarded s) (books : Books s stage) {id w : Nat} (gone : (s.writers w).loop = .gone)
    (view : (s.submits id).view = .accepted w) : ∃ err, stage id = .answered w err := by
  have known := (books.view id).symm.trans view
  cases now : stage id <;> rw [now] at known <;> cases known
  · have here := (books.queued w id).mpr now
    simp [guarded.gone w gone] at here
  · have here := books.hand w id (by simp [now, Stage.hand])
    simp [gone, Loop.carries] at here
  · have here := books.hand w id (by simp [now, Stage.hand])
    simp [gone, Loop.carries] at here
  · exact ⟨_, rfl⟩

theorem Books.submit (guarded : Guarded s) (books : Books s stage) {id : Nat} {step : SubmitStep}
    (h : submitTrafficWrite s id step = some t) : ∃ stage', Books t stage' := by
  cases step
  all_goals simp only [submitTrafficWrite] at h
  case lock =>
    split at h
    · rename_i idle
      cases h
      exact ⟨_, books.phase (by simp [idle.1, Submit.view])⟩
    · cases h
  case look =>
    split at h
    · rename_i looking
      split at h
      · split at h
        · cases h
          exact ⟨_, books.phase (by simp [looking, Submit.view])⟩
        · cases h
          exact ⟨_, books.phase (by simp [looking, Submit.view])⟩
      · cases h
        exact ⟨_, books.phase (by simp [looking, Submit.view])⟩
    · cases h
  case unlock =>
    split at h <;> cases h
    all_goals
      rename_i phase
      exact ⟨_, books.phase (by simp [phase, Submit.view])⟩
  case timeout =>
    split at h <;> cases h
    rename_i phase
    exact ⟨_, books.phase (by simp [phase, Submit.view])⟩
  case notice =>
    split at h
    · rename_i phase
      split at h <;> cases h
      exact ⟨_, books.phase (by simp [phase, Submit.view])⟩
    · cases h
  case apply =>
    split at h <;> cases h
    rename_i inlining
    have now := books.unsent id (by simp [inlining, Submit.view])
    have known := now ▸ books.account id
    refine ⟨_, books.call id .inline rfl (fun j other => ?_) ?_ (by simp [now, Stage.away, Stage.hand])
      (by simp [Stage.away, Stage.hand])⟩
    · simp [State.account, State.setSubmit, State.begin, other]
    · simp_all [State.account, State.setSubmit, State.begin, Stage.account, Submit.view]
  case finish ending =>
    split at h <;> cases h
    rename_i applying
    have now := books.inline id (by simp [applying, Submit.view])
    have known := now ▸ books.account id
    refine ⟨_, books.call id (.returned (safeApply ending)) rfl (fun j other => ?_) ?_ (by simp [now, Stage.away, Stage.hand])
      (by simp [Stage.away, Stage.hand])⟩
    · simp [State.account, State.setSubmit, State.finish, other]
    · simp_all [State.account, State.setSubmit, State.finish, Stage.account, Submit.view]
  case receive =>
    have got {w : Nat} {err : Option String} (view : (s.submits id).view = .accepted w) (reply : s.replies id = some err) :
        ∃ stage', Books { s.setSubmit id (.returned (.result err)) with
          replies := Function.update s.replies id none } stage' := by
      have now := books.answered view reply
      have known := now ▸ books.account id
      refine ⟨_, books.call id (.returned err) rfl (fun j other => ?_) ?_ (by simp [now, Stage.away, Stage.hand])
      (by simp [Stage.away, Stage.hand])⟩
      · simp [State.account, State.setSubmit, other]
      · simp_all [State.account, State.setSubmit, Stage.account, Submit.view]
    split at h <;> cases h
    all_goals
      rename_i phase reply
      exact got (by rw [phase, Submit.view]) reply
  case giveUp =>
    split at h <;> cases h
    rename_i w phase reply
    obtain ⟨err, now⟩ := books.settled guarded (guarded.closing id w phase) (by rw [phase, Submit.view])
    have known := congrArg Account.reply (now ▸ books.account id)
    cases reply.symm.trans known
  case send =>
    split at h
    · rename_i w done phase
      obtain ⟨rfl, made, fresh⟩ := guarded.offering id w done phase
      split at h <;> cases h
      have now := books.unsent id (by simp [phase, Submit.view])
      have known := now ▸ books.account id
      refine ⟨_, books.pass id (.queued w) rfl (fun j other => ?_) ?_ ?_ (fun j => ?_) (fun j st => ?_)
        (fun u other => ?_) fun u other => ?_⟩
      · simp [State.account, State.setSubmit, State.setWriter, other]
      · simp_all [State.account, State.setSubmit, State.setWriter, Stage.account, Submit.view]
      · have absent : id ∉ (s.writers w).queue := by simp [books.queued, now]
        rw [List.nodup_append]
        refine ⟨books.nodup w, List.nodup_singleton id, fun j here k last => ?_⟩
        rw [List.mem_singleton.mp last]
        exact fun same => absent (same ▸ here)
      · rw [List.mem_append, books.queued, List.mem_singleton]
        by_cases same : j = id <;> simp [same]
      · by_cases same : j = id
        · subst same
          simp only [↓reduceIte, Stage.hand, reduceCtorEq, and_false, iff_false]
          intro carried
          have other := books.carried w j st carried
          have held := Loop.carries_hand carried
          rw [← other, now] at held
          cases held
        · simp [same]
      · simp [now, Stage.hand]
      · simp [Stage.hand, Ne.symm other]
    · cases h

theorem Books.start (guarded : Guarded s) (books : Books s stage) {id : Nat} {step : StartStep}
    (h : startTrafficWriter s id step = some t) : Books t stage := by
  cases step <;> simp only [startTrafficWriter] at h
  case spawn =>
    split at h <;> cases h
    refine books.same (fun _ => rfl) fun w => ?_
    by_cases new : w = s.made
    · subst new
      simp [State.setStart, State.setWriter, guarded.unmade s.made le_rfl]
    · simp [State.setStart, State.setWriter, new]
  case look =>
    split at h
    · split at h
      · split at h <;> cases h <;> exact books.same (fun _ => rfl) fun _ => ⟨rfl, rfl⟩
      · cases h
        exact books.same (fun _ => rfl) fun _ => ⟨rfl, rfl⟩
    · cases h
  all_goals
    split at h <;> cases h
    exact books.same (fun _ => rfl) fun _ => ⟨rfl, rfl⟩

theorem Books.stop (books : Books s stage) {id : Nat} {step : StopStep} (h : stopTrafficWriter s id step = some t) :
    Books t stage := by
  cases step <;> simp only [stopTrafficWriter] at h
  case look =>
    split at h
    · split at h <;> cases h
      · rename_i ctx done _ _
        refine books.same (fun _ => rfl) fun w => ?_
        by_cases own : w = ctx
        · subst own
          simp [State.setStop, State.setWriter]
        · simp [State.setStop, State.setWriter, own]
      · exact books.same (fun _ => rfl) fun _ => ⟨rfl, rfl⟩
    · cases h
  case lock =>
    split at h <;> cases h
    exact books.same (fun _ => rfl) fun _ => ⟨rfl, rfl⟩
  case unlock => split at h <;> cases h <;> exact books.same (fun _ => rfl) fun _ => ⟨rfl, rfl⟩
  all_goals
    split at h
    · split at h <;> cases h <;> exact books.same (fun _ => rfl) fun _ => ⟨rfl, rfl⟩
    · cases h

theorem Books.writer (books : Books s stage) {w : Nat} {step : WriterStep}
    (h : runTrafficWriter s w step = some t) : ∃ stage', Books t stage' := by
  simp only [runTrafficWriter] at h
  split at h
  · have taken {req : Nat} {rest : List Nat} {drains : Bool} (queue : (s.writers w).queue = req :: rest)
        (idle : (s.writers w).loop.carries w = none) : ∃ stage', Books ((s.begin req).setWriter w
          { s.writers w with queue := rest, loop := .applying req drains }) stage' := by
      have now : stage req = .queued w := (books.queued w req).mp (queue ▸ List.mem_cons_self)
      have known := now ▸ books.account req
      obtain ⟨fresh, nodup⟩ := List.nodup_cons.mp (queue ▸ books.nodup w)
      refine ⟨_, books.pass req (.applying w) rfl (fun j other => ?_) ?_ nodup (fun j => ?_) (fun j st => ?_)
        (fun u other => ?_) fun u other => ?_⟩
      · simp [State.account, State.begin, State.setWriter, other]
      · simp_all [State.account, State.begin, State.setWriter, Stage.account]
      · by_cases same : j = req
        · simp [same, fresh]
        · simp [same, ← books.queued, queue]
      · by_cases same : j = req
        · simp [same, Stage.hand, eq_comm]
        · simp [same, idle, Ne.symm same]
      · simp [now, Stage.hand, Ne.symm other]
      · simp [Stage.hand, Ne.symm other]
    have idled {loop : Loop} (idle : (s.writers w).loop.carries w = none) (idle' : loop.carries w = none) :
        Books (s.setWriter w { s.writers w with loop }) stage := by
      refine ⟨books.account, fun u => ?_, fun u j => ?_, fun u j held => ?_, fun u j st carried => ?_⟩
      all_goals
        simp only [State.setWriter] at *
        by_cases own : u = w
      · subst own
        simpa using books.nodup u
      · simpa [own] using books.nodup u
      · subst own
        simpa using books.queued u j
      · simpa [own] using books.queued u j
      · subst own
        cases idle.symm.trans (books.hand u j held)
      · simpa [own] using books.hand u j held
      · subst own
        rw [Function.update_self, idle'] at carried
        cases carried
      · rw [Function.update_of_ne own] at carried
        exact books.carried u j st carried
    split at h
    · rename_i serving
      split at h <;> cases h
      rename_i queue
      exact taken queue (by simp [serving, Loop.carries])
    · rename_i serving
      split at h <;> cases h
      exact ⟨_, idled (by simp [serving, Loop.carries]) rfl⟩
    · rename_i draining
      split at h <;> cases h
      rename_i queue
      exact taken queue (by simp [draining, Loop.carries])
    · rename_i draining
      split at h <;> cases h
      exact ⟨_, idled (by simp [draining, Loop.carries]) rfl⟩
    · rename_i ending req drains applying
      cases h
      have now : stage req = .applying w := books.carried w req _ (by simp [applying])
      have known := now ▸ books.account req
      refine ⟨_, books.pass req (.replying w (safeApply ending)) rfl (fun j other => ?_) ?_ (books.nodup w) (fun j => ?_)
        (fun j st => ?_) (fun u other => ?_) fun u other => ?_⟩
      · simp [State.account, State.finish, State.setWriter, other]
      · simp_all [State.account, State.finish, State.setWriter, Stage.account]
      · by_cases same : j = req <;> simp [same, books.queued, now]
      · by_cases same : j = req
        · simp [same, Stage.hand, eq_comm]
        · simp [same, applying, Ne.symm same]
      · simp [now, Stage.hand, Ne.symm other]
      · simp [Stage.hand, Ne.symm other]
    · rename_i req err drains replying
      split at h <;> cases h
      have now : stage req = .replying w err := books.carried w req _ (by simp [replying])
      have known := now ▸ books.account req
      have idle : (if drains then Loop.draining else Loop.serving).carries w = none := by cases drains <;> rfl
      refine ⟨_, books.pass req (.answered w err) rfl (fun j other => ?_) ?_ (books.nodup w) (fun j => ?_)
        (fun j st => ?_) (fun u other => ?_) fun u other => ?_⟩
      · simp [State.account, State.setWriter, other]
      · simp_all [State.account, State.setWriter, Stage.account]
      · by_cases same : j = req <;> simp [same, books.queued, now]
      · by_cases same : j = req
        · simp [same, idle, Stage.hand]
        · simp [same, idle, replying, Ne.symm same]
      · simp [now, Stage.hand, Ne.symm other]
      · simp [Stage.hand]
    · cases h
  · cases h

/-! ## Any interleaving -/

def Sound (s : State) : Prop := Guarded s ∧ ∃ stage, Books s stage

theorem sound_initial : Sound {} := by
  refine ⟨⟨?_, ?_, ?_, ⟨none, rfl, nofun⟩, fun _ _ => rfl, nofun, ?_, nofun, nofun⟩, fun _ => .unsent, ?_⟩
  · simp [Submit.locked]
  · simp [Start.locked]
  · simp [Stop.locked]
  · simp [Loop.drains]
  · exact ⟨fun _ => rfl, fun _ => List.nodup_nil, by simp, nofun, nofun⟩

theorem Sound.next {a : Action} (sound : Sound s) (h : system.next s a = some t) : Sound t := by
  obtain ⟨guarded, stage, books⟩ := sound
  cases a with
  | submit id step => exact ⟨guarded.submit h, books.submit guarded h⟩
  | start id step => exact ⟨guarded.start h, stage, books.start guarded h⟩
  | stop id step => exact ⟨guarded.stop h, stage, books.stop h⟩
  | writer w step => exact ⟨guarded.writer h, books.writer h⟩

theorem sound_always (run : system.Reaches {} s) : Sound s :=
  run.invariant Sound sound_initial fun _ _ _ sound _ h => sound.next h

/-- Every call that returns a result has had its function run once, and this is its result; a call refused for a full
queue has never had it run; a request that was accepted has been run and answered when its writer is gone, and the
error for one that was not is never returned. -/
theorem traffic_writes (s : State) (run : system.Reaches {} s) (id : Nat) :
    (∀ err, s.submits id = .returned (.result err) → s.runs id = 1 ∧ s.results id = [err]) ∧
    (s.submits id = .returned .queueFull → s.runs id = 0) ∧
    (∀ w, (s.submits id).view = .accepted w → (s.writers w).loop = .gone →
      s.runs id = 1 ∧ ∃ err, s.results id = [err] ∧ s.replies id = some err) ∧
    s.submits id ≠ .returned .stopped := by
  obtain ⟨guarded, stage, books⟩ := sound_always run
  have view := books.view id
  have known := books.account id
  refine ⟨fun err phase => ?_, fun phase => ?_, fun w accepted gone => ?_, fun phase => ?_⟩
  · rw [phase] at view
    cases now : stage id <;> rw [now] at view known <;> cases view
    exact ⟨congrArg Account.runs known, congrArg Account.results known⟩
  · rw [phase] at view
    cases now : stage id <;> rw [now] at view known <;> cases view
    exact congrArg Account.runs known
  · obtain ⟨err, now⟩ := books.settled guarded gone accepted
    rw [now] at known
    exact ⟨congrArg Account.runs known, err, congrArg Account.results known, congrArg Account.reply known⟩
  · rw [phase] at view
    cases now : stage id <;> rw [now] at view <;> cases view

theorem traffic_writes_drained : ∃ s, system.Reaches {} s ∧ s.submits 0 = .returned (.result (some "locked")) ∧
    s.stops 0 = .returned ∧ s.runs 0 = 1 ∧ s.results 0 = [some "locked"] := by
  let steps : List Action :=
    [.start 0 .lock, .start 0 .look, .start 0 .spawn, .start 0 .unlock,
      .submit 0 .lock, .submit 0 .look, .submit 0 .send, .submit 0 .unlock,
      .stop 0 .lock, .stop 0 .look, .stop 0 .unlock,
      .writer 0 .drain, .writer 0 .take, .writer 0 (.finish (.returned (some "locked"))), .writer 0 .reply,
      .writer 0 .exit, .stop 0 .wake, .submit 0 .notice, .submit 0 .receive,
      .stop 0 .relock, .stop 0 .clear, .stop 0 .unlock]
  have ends : (system.run {} steps).map (fun s => (s.submits 0, s.stops 0)) =
      some (.returned (.result (some "locked")), .returned) := by decide
  obtain ⟨s, ran, phases⟩ := Option.map_eq_some_iff.mp ends
  have reached := System.run_reaches ran
  have submitted := congrArg Prod.fst phases
  exact ⟨s, reached, submitted, congrArg Prod.snd phases, (traffic_writes s reached 0).1 _ submitted⟩

end ThreeXNode.Service.TrafficWriter
