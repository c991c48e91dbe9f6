import Yahfa.RefreshProtocol

/-!
# What holds in any interleaving of `xhook_refresh` calls

`Common` is what the statics say of each other, `At` what holds where a thread
stands. Both are kept by every step of the program (`asserted`), so they hold in
every reachable state, for any number of callers.
-/

namespace Yahfa

open Threads

/-! ## Places -/

namespace Pc

/-- The mutexes held at a place. -/
def holds : Mutex → Pc → Bool
  | .core, .initRecheck _ | .core, .initHandler _ | .core, .initOk _ | .core, .initUnlock _ => true
  | .core, .asyncRecheck | .core, .asyncRunning | .core, .asyncCreate | .core, .asyncStop
  | .core, .asyncOk | .core, .asyncUnlock => true
  | .core, .askDo | .core, .askSignal | .core, .askUnlock => true
  | .core, .clearRunning | .core, .clearSignal | .core, .clearUnlock | .core, .clearLockRefresh
  | .core, .clearFree | .core, .clearUnlockRefresh | .core, .clearUnlockCore => true
  | .core, .waitTest | .core, .stopTest | .core, .stopUnlock | .core, .takeDo
  | .core, .takeUnlock => true
  | .refresh, .syncEnter | .refresh, .syncRefresh _ | .refresh, .syncUnlock => true
  | .refresh, .clearFree | .refresh, .clearUnlockRefresh => true
  | .refresh, .loopEnter | .refresh, .loopRefresh _ | .refresh, .loopRefreshUnlock => true
  | _, _ => false

/-- The places of the refresh thread. -/
def ofLoop : Pc → Bool
  | .absent | .loopTest | .loopLock | .waitTest | .asleep | .wakeLock | .stopTest | .stopUnlock
  | .stopped | .takeDo | .takeUnlock | .loopRefreshLock | .loopEnter | .loopRefresh _
  | .loopRefreshUnlock => true
  | _ => false

/-- Inside `xh_core_clear`. -/
def ofClear : Pc → Bool
  | .clearCheck | .clearLock | .clearRunning | .clearSignal | .clearUnlock | .clearJoin
  | .clearAsyncOk | .clearAsyncInited | .clearInitCheck | .clearHandler | .clearInitOk
  | .clearInited | .clearLockCore | .clearLockRefresh | .clearFree | .clearUnlockRefresh
  | .clearUnlockCore | .cleared => true
  | _ => false

/-- Inside `xh_core_refresh`. -/
def ofRefresh (pc : Pc) : Bool := !pc.ofLoop && !pc.ofClear && !(pc matches .idle)

/-- Between the two statements of `xh_core_init_once`. -/
def initializing : Pc → Bool
  | .initHandler _ | .initOk _ => true
  | _ => false

/-- Between the two statements of `xh_core_init_async_once`. -/
def creating : Pc → Bool
  | .asyncRunning | .asyncCreate | .asyncStop | .asyncOk => true
  | _ => false

/-- Between a change and the signal. -/
def signalling : Pc → Bool
  | .askSignal | .clearSignal => true
  | _ => false

/-- Behind `xh_core_init_once`, or so far in it that the static is set. -/
def seesInited : Pc → Bool
  | .initHandler _ | .initOk _ | .initUnlock _ | .initResult _ => true
  | _ => false

/-- Behind the check of `xh_core_init_ok`. -/
def seesInitOk : Pc → Bool
  | .asyncCheck | .asyncLock | .asyncRecheck | .asyncRunning | .asyncCreate | .asyncStop
  | .asyncOk | .asyncUnlock | .asyncResult | .askLock | .askDo | .askSignal | .askUnlock
  | .syncLock | .syncEnter | .syncRefresh _ | .syncUnlock => true
  | _ => false

/-- Behind `xh_core_init_async_once`, or so far in it that the static is set. -/
def seesAsyncInited : Pc → Bool
  | .asyncRunning | .asyncCreate | .asyncStop | .asyncOk | .asyncUnlock | .asyncResult => true
  | _ => false

/-- Behind the check of `xh_core_async_init_ok`. -/
def seesAsyncInitOk : Pc → Bool
  | .askLock | .askDo | .askSignal | .askUnlock | .clearLock | .clearRunning | .clearSignal
  | .clearUnlock | .clearJoin => true
  | _ => false

/-- There is a refresh thread. -/
def seesThread : Pc → Bool
  | .asyncOk | .clearLock | .clearRunning | .clearSignal | .clearUnlock | .clearJoin => true
  | _ => false

/-- There is no refresh thread. -/
def seesNoThread : Pc → Bool
  | .asyncRunning | .asyncCreate | .asyncStop | .clearAsyncOk | .clearAsyncInited
  | .clearInitCheck | .clearHandler | .clearInitOk | .clearInited | .clearLockCore
  | .clearLockRefresh | .clearFree | .clearUnlockRefresh | .clearUnlockCore | .cleared => true
  | _ => false

/-- In `xh_core_clear`, where the collections are empty. -/
def seesFreed : Pc → Bool
  | .clearUnlockRefresh | .clearUnlockCore | .cleared => true
  | _ => false

/-- The refresh thread has been told to stop. -/
def seesStop : Pc → Bool
  | .clearSignal | .clearUnlock | .clearJoin | .stopUnlock | .stopped => true
  | _ => false

/-- In `xh_core_clear`, where the refresh thread is no more. -/
def seesNoAsync : Pc → Bool
  | .clearAsyncInited | .clearInitCheck | .clearHandler | .clearInitOk | .clearInited
  | .clearLockCore | .clearLockRefresh | .clearFree | .clearUnlockRefresh | .clearUnlockCore
  | .cleared => true
  | _ => false

/-- In `xh_core_clear`, where no refresh thread has been asked for any more. -/
def seesAsyncReset : Pc → Bool
  | .clearInitCheck | .clearHandler | .clearInitOk | .clearInited | .clearLockCore
  | .clearLockRefresh | .clearFree | .clearUnlockRefresh | .clearUnlockCore | .cleared => true
  | _ => false

/-- In `xh_core_clear`, where nothing is initialised any more. -/
def seesReset : Pc → Bool
  | .clearLockCore | .clearLockRefresh | .clearFree | .clearUnlockRefresh | .clearUnlockCore
  | .cleared => true
  | _ => false

/-- In `xh_core_clear`, where the handler is no more. -/
def seesNoHandler : Pc → Bool
  | .clearInited | .clearLockCore | .clearLockRefresh | .clearFree | .clearUnlockRefresh
  | .clearUnlockCore | .cleared => true
  | _ => false

/-- The refresh thread has a request it has not refreshed for. -/
def hasTaken : Pc → Bool
  | .takeUnlock | .loopRefreshLock | .loopEnter | .loopRefresh _ => true
  | _ => false

/-- The state a refresh started from. -/
def before : Pc → Option Process
  | .syncRefresh p | .loopRefresh p => some p
  | _ => none

end Pc

section Safety

variable {ι : Type} {abi : Abi} {outside : Prop} {start : Process} {v v' : Vars ι}
  {t u : Thread ι} {pc pc' q : Pc} {i : ι}

/-! ## The invariant -/

/-- What the statics say of each other. -/
structure Common (abi : Abi) (start : Process) (v : Vars ι) : Prop where
  process : v.process = v.log.foldr (fun e s => Effect.apply abi s e) start
  exclusive : ∀ i, v.clearing = some i → ∀ j, v.busy j = false
  initializer : ∀ i, v.initializer = some i → v.busy i = true
  creator : ∀ i, v.creator = some i → v.busy i = true
  notInited : v.inited = false → v.initOk = false ∧ v.handler = false
  handler : v.handler = true → v.initOk = true ∨ v.initializer ≠ none
  initOk : v.initOk = true → v.handler = true ∨ v.clearing ≠ none
  failed : v.inited = true → v.initOk = false →
    v.handlerFailed = true ∨ v.initializer ≠ none ∨ v.clearing ≠ none
  notAsync : v.asyncInited = false → v.thread = .none ∧ v.asyncInitOk = false
  asyncOk : v.asyncInitOk = true → v.thread ≠ .none ∨ v.clearing ≠ none
  noThread : v.asyncInitOk = false → v.thread = .none ∨ v.creator ≠ none
  createFailed : v.asyncInited = true → v.asyncInitOk = false →
    v.createFailed = true ∨ v.creator ≠ none ∨ v.clearing ≠ none
  running : v.thread ≠ .none → v.handler = true ∧ (v.running = true ∨ v.clearing ≠ none)
  exited : v.thread = .exited → v.running = false
  cond : v.cond ≠ .idle → v.thread = .alive
  wakeUp : v.cond = .asleep → v.signaller = none → v.doRefresh = false ∧ v.running = true
  taken : v.doRefresh = false → v.taken = v.asked
  le : v.served ≤ v.taken ∧ v.taken ≤ v.asked

/-- What holds where a thread stands. -/
structure At (t : Thread ι) (pc : Pc) (v : Vars ι) : Prop where
  loop : pc.ofLoop = t.isNone
  busy : ∀ i, t = some i → v.busy i = pc.ofRefresh
  clearing : ∀ i, t = some i → (v.clearing = some i ↔ pc.ofClear = true)
  initializer : ∀ i, t = some i → (v.initializer = some i ↔ pc.initializing = true)
  creator : ∀ i, t = some i → (v.creator = some i ↔ pc.creating = true)
  signaller : ∀ i, t = some i → (v.signaller = some i ↔ pc.signalling = true)
  inited : pc.seesInited = true → v.inited = true
  fresh : ∀ a, pc = .initHandler a → v.handler = false ∧ v.initOk = false
  added : ∀ a, pc = .initOk a → v.handler = true ∧ v.initOk = false
  initOk : pc.seesInitOk = true → v.initOk = true
  asyncInited : pc.seesAsyncInited = true → v.asyncInited = true
  asyncInitOk : pc.seesAsyncInitOk = true → v.asyncInitOk = true
  create : pc = .asyncCreate → v.running = true
  refused : pc = .asyncStop → v.createFailed = true
  thread : pc.seesThread = true → v.thread ≠ .none
  joining : pc = .clearCheck → v.asyncInitOk = true → v.thread ≠ .none
  noThread : pc.seesNoThread = true → v.thread = .none
  noAsync : pc.seesNoAsync = true → v.asyncInitOk = false
  removed : pc = .clearInitOk → v.handler = false
  noHandler : pc.seesNoHandler = true → v.initOk = false ∧ v.handler = false
  asyncReset : pc.seesAsyncReset = true → v.asyncInited = false
  reset : pc.seesReset = true → v.inited = false
  freed : pc.seesFreed = true → v.process.core = { v.process.core with
    hookInfo := [], ignoreInfo := [], mapInfo := [] }
  stop : pc.seesStop = true → v.running = false
  alive : t = none → (v.thread = .alive ↔ pc ≠ .absent)
  cond : t = none → (v.cond ≠ .idle ↔ pc = .asleep)
  served : t = none → pc.hasTaken = false → v.served = v.taken
  request : pc = .stopTest → v.doRefresh = true ∨ v.running = false
  taking : pc = .takeDo → v.doRefresh = true
  before : ∀ p, pc.before = some p → p = v.process


/-! ## Who excludes whom -/

section Places

attribute [local simp] Pc.holds Pc.ofLoop Pc.ofClear Pc.initializing Pc.creating Pc.signalling
  Pc.seesInited Pc.seesInitOk Pc.seesAsyncInited Pc.seesAsyncInitOk Pc.seesThread Pc.seesNoThread
  Pc.seesFreed Pc.seesStop Pc.seesNoAsync Pc.seesAsyncReset Pc.seesReset Pc.seesNoHandler
  Pc.hasTaken Pc.before Pc.ofRefresh

theorem Pc.initializing_holds : q.initializing = true → q.holds .core = true := by
  cases q <;> simp

theorem Pc.creating_holds : q.creating = true → q.holds .core = true := by
  cases q <;> simp

theorem Pc.signalling_holds : q.signalling = true → q.holds .core = true := by
  cases q <;> simp

theorem Pc.before_holds {p : Process} : q.before = some p → q.holds .refresh = true := by
  cases q <;> simp

theorem Pc.eq_idle (hloop : q.ofLoop = false) (hclear : q.ofClear = false)
    (hrefresh : q.ofRefresh = false) : q = .idle := by
  cases q <;> simp at hloop hclear hrefresh ⊢

theorem Pc.seesInited_refresh : q.seesInited = true → q.ofRefresh = true := by
  cases q <;> simp

theorem Pc.seesInitOk_refresh : q.seesInitOk = true → q.ofRefresh = true := by
  cases q <;> simp

theorem Pc.seesAsyncInited_refresh : q.seesAsyncInited = true → q.ofRefresh = true := by
  cases q <;> simp

theorem Pc.seesAsyncInitOk_call :
    q.seesAsyncInitOk = true → q.ofRefresh = true ∨ q.ofClear = true := by
  cases q <;> simp

theorem Pc.seesThread_call : q.seesThread = true → q.ofRefresh = true ∨ q.ofClear = true := by
  cases q <;> simp

theorem Pc.seesNoThread_call :
    q.seesNoThread = true → q.creating = true ∨ q.ofClear = true := by
  cases q <;> simp

theorem Pc.seesNoAsync_clear : q.seesNoAsync = true → q.ofClear = true := by
  cases q <;> simp

theorem Pc.seesNoHandler_clear : q.seesNoHandler = true → q.ofClear = true := by
  cases q <;> simp

theorem Pc.seesAsyncReset_clear : q.seesAsyncReset = true → q.ofClear = true := by
  cases q <;> simp

theorem Pc.seesReset_clear : q.seesReset = true → q.ofClear = true := by
  cases q <;> simp

theorem Pc.seesFreed_clear :
    q.seesFreed = true → q.ofClear = true ∧ q.seesNoThread = true := by
  cases q <;> simp

theorem Pc.seesStop_call :
    q.seesStop = true → q.ofClear = true ∨ q.ofLoop = true ∧ q ≠ .absent := by
  cases q <;> simp

end Places

/-- While one thread refreshes, no other clears. -/
theorem At.not_clear (hG : Common abi start v) (hA : At (some i) pc v) (hpc : pc.ofRefresh = true)
    (hU : At u q v) : q.ofClear = false := by
  by_contra hclear
  rw [Bool.not_eq_false] at hclear
  cases u with
  | none =>
      have hloop : q.ofLoop = true := hU.loop
      cases q <;> simp [Pc.ofLoop, Pc.ofClear] at hloop hclear
  | some j =>
      have hbusy := hG.exclusive j ((hU.clearing j rfl).mpr hclear) i
      rw [hA.busy i rfl, hpc] at hbusy
      cases hbusy

/-- While one thread clears, no other refreshes or clears. -/
theorem At.quiet (hG : Common abi start v) (hA : At (some i) pc v) (hpc : pc.ofClear = true)
    (hne : some i ≠ u) (hU : At u q v) : q.ofRefresh = false ∧ q.ofClear = false := by
  have hclearing : v.clearing = some i := (hA.clearing i rfl).mpr hpc
  cases u with
  | none =>
      have hloop : q.ofLoop = true := hU.loop
      cases q <;> simp [Pc.ofLoop] at hloop <;> exact ⟨rfl, rfl⟩
  | some j =>
      refine ⟨(hU.busy j rfl).symm.trans (hG.exclusive i hclearing j), ?_⟩
      by_contra hclear
      rw [Bool.not_eq_false, ← hU.clearing j rfl, hclearing] at hclear
      exact hne hclear

/-- While a thread refreshes, nobody has begun to clear. -/
theorem Common.clearing_eq_none (hG : Common abi start v) (hA : At (some i) pc v)
    (hpc : pc.ofRefresh = true) : v.clearing = none := by
  cases hc : v.clearing with
  | none => rfl
  | some j =>
      have hbusy := hG.exclusive j hc i
      rw [hA.busy i rfl, hpc] at hbusy
      cases hbusy

/-- While a thread clears, nobody is in the middle of an initialisation. -/
theorem Common.between_eq_none (hG : Common abi start v) (hA : At (some i) pc v)
    (hpc : pc.ofClear = true) : v.initializer = none ∧ v.creator = none := by
  have hidle := hG.exclusive i ((hA.clearing i rfl).mpr hpc)
  constructor
  · by_contra hne
    rcases Option.ne_none_iff_exists'.mp hne with ⟨j, hj⟩
    exact absurd (hG.initializer j hj) (by simp [hidle])
  · by_contra hne
    rcases Option.ne_none_iff_exists'.mp hne with ⟨j, hj⟩
    exact absurd (hG.creator j hj) (by simp [hidle])

/-- The handler is there while a thread refreshes behind the check. -/
theorem Common.handler_of_initOk (hG : Common abi start v) (hA : At (some i) pc v)
    (hpc : pc.ofRefresh = true) (hok : v.initOk = true) : v.handler = true :=
  (hG.initOk hok).resolve_right fun hne => hne (hG.clearing_eq_none hA hpc)

/-- A place of the refresh thread is one of the refresh thread. -/
theorem At.eq_none (hU : At u q v) (hq : q.ofLoop = true) : u = none := by
  rw [hU.loop] at hq
  exact Option.isNone_iff_eq_none.mp hq

/-! ## Every step keeps the invariant -/

variable [DecidableEq ι]

theorem refreshAnnotated : Annotated (refreshProgram abi ι outside) fun pc l => pc.holds l = true where
  run h l := by
    cases h <;> cases l <;> rfl
  lock h k := by
    cases h <;> cases k <;> simp [Pc.holds]
  unlock h := by
    cases h <;> refine ⟨rfl, fun k => ?_⟩ <;> cases k <;> simp [Pc.holds]

/-- A clause is touched by the steps that write one of its variables. -/
theorem Common.run (h : Run abi outside t pc v pc' v') (hG : Common abi start v) (hA : At t pc v) :
    Common abi start v' where
  process := by
    cases h with
    | syncEnd i _ before env =>
        rw [List.foldr_cons, ← hG.process, hA.before before rfl]
        rfl
    | loopEnd _ before env =>
        rw [List.foldr_cons, ← hG.process, hA.before before rfl]
        rfl
    | freed =>
        rw [List.foldr_cons, ← hG.process]
        rfl
    | _ => exact hG.process
  exclusive := by
    cases h with
    | callRefresh i _ _ _ hc =>
        intro j hj
        simp [hc] at hj
    | callClear i _ _ _ hb => exact fun _ _ => hb
    | leave i =>
        intro j hj k
        simp only [Function.update_apply]
        split
        · rfl
        · exact hG.exclusive j hj k
    | leaveClear =>
        intro j hj
        cases hj
    | _ => exact hG.exclusive
  initializer := by
    cases h with
    | callRefresh i =>
        intro j hj
        simp only [Function.update_apply]
        split
        · rfl
        · exact hG.initializer j hj
    | leave i =>
        intro j hj
        have hne : j ≠ i := by
          rintro rfl
          exact absurd ((hA.initializer _ rfl).mp hj) (by simp [Pc.initializing])
        simp only [Function.update_of_ne hne]
        exact hG.initializer j hj
    | initFirst i =>
        rintro _ ⟨⟩
        exact hA.busy i rfl
    | handlerRefused | initDone => exact fun _ hj => by cases hj
    | _ => exact hG.initializer
  creator := by
    cases h with
    | callRefresh i =>
        intro j hj
        simp only [Function.update_apply]
        split
        · rfl
        · exact hG.creator j hj
    | leave i =>
        intro j hj
        have hne : j ≠ i := by
          rintro rfl
          exact absurd ((hA.creator _ rfl).mp hj) (by simp [Pc.creating])
        simp only [Function.update_of_ne hne]
        exact hG.creator j hj
    | asyncFirst i =>
        rintro _ ⟨⟩
        exact hA.busy i rfl
    | asyncStopped | asyncDone => exact fun _ hj => by cases hj
    | _ => exact hG.creator
  notInited := by
    cases h with
    | initFirst => exact fun h0 => by cases h0
    | handlerAdded | initDone => exact fun h0 => absurd ((hA.inited rfl).symm.trans h0) (by simp)
    | handlerRemoved => exact fun h0 => ⟨(hG.notInited h0).1, rfl⟩
    | clearInitNotOk => exact fun h0 => ⟨rfl, (hG.notInited h0).2⟩
    | clearInitReset => exact fun _ => hA.noHandler rfl
    | _ => exact hG.notInited
  handler := by
    cases h with
    | initFirst => exact fun _ => .inr (by simp)
    | handlerAdded i => exact fun _ => .inr (by simp [(hA.initializer i rfl).mpr rfl])
    | handlerRefused => exact fun h0 => absurd ((hA.fresh _ rfl).1.symm.trans h0) (by simp)
    | initDone => exact fun _ => .inl rfl
    | handlerRemoved => exact fun h0 => by cases h0
    | clearInitNotOk => exact fun h0 => absurd ((hA.removed rfl).symm.trans h0) (by simp)
    | _ => exact hG.handler
  initOk := by
    cases h with
    | callClear => exact fun _ => .inr (by simp)
    | leaveClear => exact fun h0 => absurd ((hA.noHandler rfl).1.symm.trans h0) (by simp)
    | handlerAdded => exact fun _ => .inl rfl
    | initDone => exact fun _ => .inl (hA.added _ rfl).1
    | handlerRemoved i => exact fun _ => .inr (by simp [(hA.clearing i rfl).mpr rfl])
    | clearInitNotOk => exact fun h0 => by cases h0
    | _ => exact hG.initOk
  failed := by
    cases h with
    | callClear => exact fun _ _ => .inr (.inr (by simp))
    | leaveClear => exact fun h0 => absurd ((hA.reset rfl).symm.trans h0) (by simp)
    | initFirst => exact fun _ _ => .inr (.inl (by simp))
    | handlerRefused => exact fun _ _ => .inl rfl
    | initDone => exact fun _ h0 => by cases h0
    | clearInitNotOk i => exact fun _ _ => .inr (.inr (by simp [(hA.clearing i rfl).mpr rfl]))
    | clearInitReset => exact fun h0 => by cases h0
    | _ => exact hG.failed
  notAsync := by
    cases h with
    | asyncFirst => exact fun h0 => by cases h0
    | threadCreated | asyncDone => exact fun h0 => absurd ((hA.asyncInited rfl).symm.trans h0) (by simp)
    | joined => exact fun h0 => ⟨rfl, (hG.notAsync h0).2⟩
    | clearAsyncNotOk => exact fun h0 => ⟨(hG.notAsync h0).1, rfl⟩
    | clearAsyncReset => exact fun _ => ⟨hA.noThread rfl, hA.noAsync rfl⟩
    | begin _ hcreated => exact fun h0 => absurd (hG.notAsync h0).1 (by simp [hcreated])
    | exit =>
        intro h0
        have halive : v.thread = .alive := (hA.alive rfl).mpr (by simp)
        exact absurd (hG.notAsync h0).1 (by simp [halive])
    | _ => exact hG.notAsync
  asyncOk := by
    cases h with
    | callClear => exact fun _ => .inr (by simp)
    | leaveClear => exact fun h0 => absurd ((hG.notAsync (hA.asyncReset rfl)).2.symm.trans h0) (by simp)
    | asyncDone => exact fun _ => .inl (hA.thread rfl)
    | joined i => exact fun _ => .inr (by simp [(hA.clearing i rfl).mpr rfl])
    | clearAsyncNotOk => exact fun h0 => by cases h0
    | threadCreated | begin | exit => exact fun _ => .inl (by simp)
    | _ => exact hG.asyncOk
  noThread := by
    cases h with
    | asyncFirst => exact fun _ => .inr (by simp)
    | threadCreated i => exact fun _ => .inr (by simp [(hA.creator i rfl).mpr rfl])
    | asyncStopped => exact fun _ => .inl (hA.noThread rfl)
    | asyncDone => exact fun h0 => by cases h0
    | joined => exact fun _ => .inl rfl
    | clearAsyncNotOk => exact fun _ => .inl (hA.noThread rfl)
    | begin _ hcreated =>
        exact fun h0 => .inr ((hG.noThread h0).resolve_left (by simp [hcreated]))
    | exit =>
        intro h0
        have halive : v.thread = .alive := (hA.alive rfl).mpr (by simp)
        exact .inr ((hG.noThread h0).resolve_left (by simp [halive]))
    | _ => exact hG.noThread
  createFailed := by
    cases h with
    | callClear => exact fun _ _ => .inr (.inr (by simp))
    | leaveClear => exact fun h0 => absurd ((hA.asyncReset rfl).symm.trans h0) (by simp)
    | asyncFirst => exact fun _ _ => .inr (.inl (by simp))
    | threadRefused => exact fun _ _ => .inl rfl
    | asyncStopped => exact fun _ _ => .inl (hA.refused rfl)
    | asyncDone => exact fun _ h0 => by cases h0
    | clearAsyncNotOk i => exact fun _ _ => .inr (.inr (by simp [(hA.clearing i rfl).mpr rfl]))
    | clearAsyncReset => exact fun h0 => by cases h0
    | _ => exact hG.createFailed
  running := by
    cases h with
    | callClear => exact fun h0 => ⟨(hG.running h0).1, .inr (by simp)⟩
    | leaveClear | asyncStopped => exact fun h0 => absurd (hA.noThread rfl) h0
    | handlerAdded => exact fun h0 => ⟨rfl, (hG.running h0).2⟩
    | asyncRun => exact fun h0 => ⟨(hG.running h0).1, .inl rfl⟩
    | threadCreated =>
        exact fun _ => ⟨hG.handler_of_initOk hA rfl (hA.initOk rfl), .inl (hA.create rfl)⟩
    | clearStop i =>
        exact fun h0 => ⟨(hG.running h0).1, .inr (by simp [(hA.clearing i rfl).mpr rfl])⟩
    | joined => exact fun h0 => absurd rfl h0
    | handlerRemoved => exact fun h0 => absurd (hA.noThread rfl) h0
    | begin _ hcreated => exact fun _ => hG.running (by simp [hcreated])
    | exit =>
        have halive : v.thread = .alive := (hA.alive rfl).mpr (by simp)
        exact fun _ => hG.running (by simp [halive])
    | _ => exact hG.running
  exited := by
    cases h with
    | asyncRun => exact fun h0 => absurd ((hA.noThread rfl).symm.trans h0) (by simp)
    | asyncStopped | clearStop => exact fun _ => rfl
    | threadCreated | joined | begin => exact fun h0 => by cases h0
    | exit => exact fun _ => hA.stop rfl
    | _ => exact hG.exited
  cond := by
    cases h with
    | threadCreated => exact fun h0 => absurd ((hA.noThread rfl).symm.trans (hG.cond h0)) (by simp)
    | askSignalled | clearSignalled =>
        -- a signal does not make a thread sleep
        intro h0
        refine hG.cond fun hidle => h0 ?_
        simp [hidle]
    | joined _ _ hexited => exact fun h0 => absurd (hG.cond h0) (by simp [hexited])
    | begin => exact fun _ => rfl
    | woken | spurious => exact fun h0 => absurd rfl h0
    | exit => exact fun h0 => absurd ((hA.cond rfl).mp h0) (by simp)
    | _ => exact hG.cond
  wakeUp := by
    cases h with
    | asyncRun | asyncStopped =>
        intro h0
        have hasleep : v.cond ≠ .idle := fun hidle => by cases hidle.symm.trans h0
        exact absurd ((hA.noThread rfl).symm.trans (hG.cond hasleep)) (by simp)
    | ask | clearStop => exact fun _ h0 => by cases h0
    | askSignalled | clearSignalled =>
        -- whoever sleeps is woken
        intro h0
        dsimp only at h0
        split at h0
        · cases h0
        · exact absurd h0 ‹_›
    | woken | spurious => exact fun h0 => by cases h0
    | take =>
        intro h0
        have hasleep : v.cond ≠ .idle := fun hidle => by cases hidle.symm.trans h0
        exact absurd ((hA.cond rfl).mp hasleep) (by simp)
    | _ => exact hG.wakeUp
  taken := by
    cases h with
    | ask => exact fun h0 => by cases h0
    | take => exact fun _ => rfl
    | _ => exact hG.taken
  le := by
    have hle := hG.le
    cases h with
    | ask => exact ⟨hle.1, Nat.le_succ_of_le hle.2⟩
    | take => exact ⟨hle.1.trans hle.2, le_refl _⟩
    | loopEnd => exact ⟨le_refl _, hle.2⟩
    | _ => exact hle

omit [DecidableEq ι] in
theorem Common.unlock {l : Mutex} (h : Unlocks pc l v pc' v') (hG : Common abi start v)
    (hA : At t pc v) : Common abi start v' := by
  cases h with
  | wait _ hnothing =>
      -- the refresh thread falls asleep when there is nothing to do
      have halive : v.thread = .alive := (hA.alive (hA.eq_none rfl)).mpr (by simp)
      exact { hG with cond := fun _ => halive, wakeUp := fun _ _ => hnothing }
  | _ => exact hG

/-- Where the thread that moves gets to. -/
theorem At.run (h : Run abi outside t pc v pc' v') (hG : Common abi start v) (hA : At t pc v) :
    At t pc' v' where
  loop := by
    cases h with
    | _ => exact hA.loop
  busy := by
    cases h with
    | callRefresh i | leave i =>
        rintro _ ⟨⟩
        exact Function.update_self ..
    | _ => exact hA.busy
  clearing := by
    cases h with
    | callRefresh i _ _ _ hc => exact hA.clearing
    | callClear | leaveClear =>
        rintro _ ⟨⟩
        simp [Pc.ofClear]
    | _ => exact hA.clearing
  initializer := by
    cases h with
    | initFirst | handlerRefused | initDone =>
        rintro _ ⟨⟩
        simp [Pc.initializing]
    | _ => exact hA.initializer
  creator := by
    cases h with
    | asyncFirst | asyncStopped | asyncDone =>
        rintro _ ⟨⟩
        simp [Pc.creating]
    | _ => exact hA.creator
  signaller := by
    cases h with
    | ask | askSignalled | clearStop | clearSignalled =>
        rintro _ ⟨⟩
        simp [Pc.signalling]
    | _ => exact hA.signaller
  inited := by
    cases h with
    | initSeen _ _ _ hseen | initAgain _ _ _ hseen => exact fun _ => hseen
    | initFirst => exact fun _ => rfl
    | _ => first | exact hA.inited | simp [Pc.seesInited]
  fresh := by
    cases h with
    | initFirst _ _ _ hunseen => exact fun _ _ => (hG.notInited hunseen).symm
    | _ => simp
  added := by
    cases h with
    | handlerAdded => exact fun _ _ => ⟨rfl, (hA.fresh _ rfl).2⟩
    | _ => simp
  initOk := by
    cases h with
    | goAsync _ _ hok | goSync _ _ hok => exact fun _ => hok
    | _ => first | exact hA.initOk | simp [Pc.seesInitOk]
  asyncInited := by
    cases h with
    | asyncSeen _ _ hseen | asyncAgain _ _ hseen => exact fun _ => hseen
    | asyncFirst => exact fun _ => rfl
    | _ => first | exact hA.asyncInited | simp [Pc.seesAsyncInited]
  asyncInitOk := by
    cases h with
    | asyncPassed _ _ hok | clearThread _ _ hok => exact fun _ => hok
    | _ => first | exact hA.asyncInitOk | simp [Pc.seesAsyncInitOk]
  create := by
    cases h with
    | asyncRun => exact fun _ => rfl
    | _ => simp
  refused := by
    cases h with
    | threadRefused => exact fun _ => rfl
    | _ => simp
  thread := by
    cases h with
    | threadCreated => exact fun _ => by simp
    | clearThread _ _ hok => exact fun _ => hA.joining rfl hok
    | _ => first | exact hA.thread | simp [Pc.seesThread]
  joining := by
    cases h with
    | callClear _ _ _ hc => exact fun _ hok => (hG.asyncOk hok).resolve_right fun hne => hne hc
    | _ => simp
  noThread := by
    cases h with
    | asyncFirst _ _ hunseen => exact fun _ => (hG.notAsync hunseen).1
    | joined => exact fun _ => rfl
    | clearNoThread _ _ hok =>
        have hnone := (hG.between_eq_none hA rfl).2
        exact fun _ => (hG.noThread hok).resolve_right fun hne => hne hnone
    | _ => first | exact hA.noThread | simp [Pc.seesNoThread]
  noAsync := by
    cases h with
    | clearAsyncNotOk => exact fun _ => rfl
    | clearNoThread _ _ hok => exact fun _ => hok
    | _ => first | exact hA.noAsync | simp [Pc.seesNoAsync]
  removed := by
    cases h with
    | handlerRemoved => exact fun _ => rfl
    | _ => simp
  noHandler := by
    cases h with
    | clearNoInit _ _ hok =>
        have hnone := (hG.between_eq_none hA rfl).1
        refine fun _ => ⟨hok, ?_⟩
        by_contra hhandler
        rcases hG.handler (Bool.not_eq_false _ ▸ hhandler) with hok' | hne
        · exact absurd (hok.symm.trans hok') (by simp)
        · exact hne hnone
    | clearInitNotOk => exact fun _ => ⟨rfl, hA.removed rfl⟩
    | _ => first | exact hA.noHandler | simp [Pc.seesNoHandler]
  asyncReset := by
    cases h with
    | clearAsyncReset => exact fun _ => rfl
    | _ => first | exact hA.asyncReset | simp [Pc.seesAsyncReset]
  reset := by
    cases h with
    | clearInitReset => exact fun _ => rfl
    | _ => first | exact hA.reset | simp [Pc.seesReset]
  freed := by
    cases h with
    | freed => exact fun _ => rfl
    | _ => first | exact hA.freed | simp [Pc.seesFreed]
  stop := by
    cases h with
    | clearStop => exact fun _ => rfl
    | loopOff _ hstop | stopNow _ hstop => exact fun _ => hstop
    | _ => first | exact hA.stop | simp [Pc.seesStop]
  alive := by
    intro ht
    have halive := hA.alive ht
    cases h with
    | threadCreated | joined => cases ht
    | begin | exit => simp
    | _ => simpa using halive
  cond := by
    intro ht
    have hcond := hA.cond ht
    cases h with
    | askSignalled | clearSignalled => cases ht
    | woken | spurious => simp
    | _ => simpa using hcond
  served := by
    cases h with
    | loopEnd => exact fun _ _ => rfl
    | _ => first | exact hA.served | simp [Pc.hasTaken]
  request := by
    cases h with
    | waited _ hsome =>
        intro _
        by_cases hdo : v.doRefresh = true
        · exact .inl hdo
        · exact .inr (by simpa [hdo] using hsome)
    | _ => simp
  taking := by
    cases h with
    | stopNot _ hgo => exact fun _ => (hA.request rfl).resolve_right (by simp [hgo])
    | _ => simp
  before := by
    cases h with
    | syncBegin | loopBegin => exact fun _ hp => (Option.some.inj hp).symm
    | _ => simp [Pc.before]

omit [DecidableEq ι] in
theorem At.unlock {l : Mutex} (h : Unlocks pc l v pc' v') (hA : At t pc v) : At t pc' v' where
  loop := by cases h <;> exact hA.loop
  busy := by cases h <;> exact hA.busy
  clearing := by cases h <;> exact hA.clearing
  initializer := by cases h <;> exact hA.initializer
  creator := by cases h <;> exact hA.creator
  signaller := by cases h <;> exact hA.signaller
  inited := by cases h <;> exact hA.inited
  fresh := by cases h <;> simp
  added := by cases h <;> simp
  initOk := by cases h <;> first | exact hA.initOk | simp [Pc.seesInitOk]
  asyncInited := by cases h <;> exact hA.asyncInited
  asyncInitOk := by cases h <;> first | exact hA.asyncInitOk | simp [Pc.seesAsyncInitOk]
  create := by cases h <;> simp
  refused := by cases h <;> simp
  thread := by cases h <;> exact hA.thread
  joining := by cases h <;> simp
  noThread := by cases h <;> exact hA.noThread
  noAsync := by cases h <;> exact hA.noAsync
  removed := by cases h <;> simp
  noHandler := by cases h <;> exact hA.noHandler
  asyncReset := by cases h <;> exact hA.asyncReset
  reset := by cases h <;> exact hA.reset
  freed := by cases h <;> exact hA.freed
  stop := by cases h <;> exact hA.stop
  request := by cases h <;> simp
  taking := by cases h <;> simp
  before := by cases h <;> exact hA.before
  alive := by
    intro ht
    have halive := hA.alive ht
    cases h <;> simpa using halive
  cond := by
    intro ht
    have hcond := hA.cond ht
    cases h with
    | wait => simp
    | _ => simpa using hcond
  served := by cases h <;> exact hA.served

omit [DecidableEq ι] in
theorem At.lock {l : Mutex} (h : Locks pc l pc') (hA : At t pc v) : At t pc' v where
  loop := by cases h <;> exact hA.loop
  busy := by cases h <;> exact hA.busy
  clearing := by cases h <;> exact hA.clearing
  initializer := by cases h <;> exact hA.initializer
  creator := by cases h <;> exact hA.creator
  signaller := by cases h <;> exact hA.signaller
  inited := by cases h <;> exact hA.inited
  fresh := by cases h <;> simp
  added := by cases h <;> simp
  initOk := by cases h <;> exact hA.initOk
  asyncInited := by cases h <;> exact hA.asyncInited
  asyncInitOk := by cases h <;> exact hA.asyncInitOk
  create := by cases h <;> simp
  refused := by cases h <;> simp
  thread := by cases h <;> exact hA.thread
  joining := by cases h <;> simp
  noThread := by cases h <;> exact hA.noThread
  noAsync := by cases h <;> exact hA.noAsync
  removed := by cases h <;> simp
  noHandler := by cases h <;> exact hA.noHandler
  asyncReset := by cases h <;> exact hA.asyncReset
  reset := by cases h <;> exact hA.reset
  freed := by cases h <;> exact hA.freed
  stop := by cases h <;> exact hA.stop
  request := by cases h <;> simp
  taking := by cases h <;> simp
  before := by cases h <;> exact hA.before
  alive := by
    intro ht
    have halive := hA.alive ht
    cases h <;> simpa using halive
  cond := by
    intro ht
    have hcond := hA.cond ht
    cases h <;> simpa using hcond
  served := by cases h <;> exact hA.served

/-- Where another thread stands when one moves. The two have no mutex in common,
and nobody refreshes while another clears. -/
theorem At.others (h : Run abi outside t pc v pc' v') (hG : Common abi start v) (hA : At t pc v)
    (htu : t ≠ u) (htogether : ∀ l, pc.holds l = true → ¬ q.holds l = true) (hU : At u q v) :
    At u q v' where
  loop := by cases h <;> exact hU.loop
  busy := by
    cases h with
    | callRefresh i | leave i =>
        intro j hj
        have hne : j ≠ i := fun heq => htu (heq ▸ hj.symm)
        simp only [Function.update_of_ne hne]
        exact hU.busy j hj
    | _ => exact hU.busy
  clearing := by
    cases h with
    | callClear i _ _ hc =>
        rintro j rfl
        have hold := hU.clearing j rfl
        simp only [hc, reduceCtorEq, false_iff] at hold
        exact iff_of_false (fun heq => htu heq) hold
    | leaveClear i =>
        rintro j rfl
        have hnot := (hA.quiet hG rfl htu hU).2
        simp [hnot]
    | _ => exact hU.clearing
  initializer := by
    cases h with
    | initFirst | handlerRefused | initDone =>
        rintro j rfl
        refine iff_of_false ?_ fun hq => htogether .core rfl (Pc.initializing_holds hq)
        first | exact fun heq => htu heq | simp
    | _ => exact hU.initializer
  creator := by
    cases h with
    | asyncFirst | asyncStopped | asyncDone =>
        rintro j rfl
        refine iff_of_false ?_ fun hq => htogether .core rfl (Pc.creating_holds hq)
        first | exact fun heq => htu heq | simp
    | _ => exact hU.creator
  signaller := by
    cases h with
    | ask | askSignalled | clearStop | clearSignalled =>
        rintro j rfl
        refine iff_of_false ?_ fun hq => htogether .core rfl (Pc.signalling_holds hq)
        first | exact fun heq => htu heq | simp
    | _ => exact hU.signaller
  inited := by
    cases h with
    | initFirst => exact fun _ => rfl
    | clearInitReset =>
        have hnot := (hA.quiet hG rfl htu hU).1
        exact fun hq => absurd (Pc.seesInited_refresh hq) (by simp [hnot])
    | _ => exact hU.inited
  fresh := by
    cases h with
    | handlerAdded | initDone =>
        rintro a rfl
        exact absurd rfl (htogether .core rfl)
    | handlerRemoved => exact fun a hq => ⟨rfl, (hU.fresh a hq).2⟩
    | clearInitNotOk => exact fun a hq => ⟨(hU.fresh a hq).1, rfl⟩
    | _ => exact hU.fresh
  added := by
    cases h with
    | handlerAdded => exact fun a hq => ⟨rfl, (hU.added a hq).2⟩
    | initDone =>
        rintro a rfl
        exact absurd rfl (htogether .core rfl)
    | handlerRemoved =>
        rintro a rfl
        exact absurd (hA.quiet hG rfl htu hU).1 (by simp [Pc.ofRefresh, Pc.ofLoop, Pc.ofClear])
    | clearInitNotOk => exact fun a hq => ⟨(hU.added a hq).1, rfl⟩
    | _ => exact hU.added
  initOk := by
    cases h with
    | initDone => exact fun _ => rfl
    | clearInitNotOk =>
        have hnot := (hA.quiet hG rfl htu hU).1
        exact fun hq => absurd (Pc.seesInitOk_refresh hq) (by simp [hnot])
    | _ => exact hU.initOk
  asyncInited := by
    cases h with
    | asyncFirst => exact fun _ => rfl
    | clearAsyncReset =>
        have hnot := (hA.quiet hG rfl htu hU).1
        exact fun hq => absurd (Pc.seesAsyncInited_refresh hq) (by simp [hnot])
    | _ => exact hU.asyncInited
  asyncInitOk := by
    cases h with
    | asyncDone => exact fun _ => rfl
    | clearAsyncNotOk =>
        rcases hA.quiet hG rfl htu hU with ⟨hnot, hnot'⟩
        exact fun hq => absurd (Pc.seesAsyncInitOk_call hq) (by simp [hnot, hnot'])
    | _ => exact hU.asyncInitOk
  create := by
    cases h with
    | asyncRun => exact fun _ => rfl
    | asyncStopped | clearStop =>
        rintro rfl
        exact absurd rfl (htogether .core rfl)
    | _ => exact hU.create
  refused := by
    cases h with
    | threadRefused => exact fun _ => rfl
    | clearAsyncReset =>
        rintro rfl
        exact absurd (hA.quiet hG rfl htu hU).1 (by simp [Pc.ofRefresh, Pc.ofLoop, Pc.ofClear])
    | _ => exact hU.refused
  thread := by
    cases h with
    | threadCreated | begin | exit => exact fun _ => by simp
    | joined =>
        rcases hA.quiet hG rfl htu hU with ⟨hnot, hnot'⟩
        exact fun hq => absurd (Pc.seesThread_call hq) (by simp [hnot, hnot'])
    | _ => exact hU.thread
  joining := by
    cases h with
    | threadCreated | begin | exit => exact fun _ _ => by simp
    | asyncDone =>
        rintro rfl
        exact absurd (hA.not_clear hG rfl hU) (by simp [Pc.ofClear])
    | joined =>
        rintro rfl
        exact absurd (hA.quiet hG rfl htu hU).2 (by simp [Pc.ofClear])
    | clearAsyncNotOk => exact fun _ hok => by cases hok
    | _ => exact hU.joining
  noThread := by
    cases h with
    | threadCreated =>
        intro hq
        rcases Pc.seesNoThread_call hq with hcreating | hclear
        · exact absurd (Pc.creating_holds hcreating) (htogether .core rfl)
        · exact absurd (hA.not_clear hG rfl hU) (by simp [hclear])
    | joined => exact fun _ => rfl
    | begin _ hcreated => exact fun hq => absurd ((hU.noThread hq).symm.trans hcreated) (by simp)
    | exit =>
        have halive : v.thread = .alive := (hA.alive rfl).mpr (by simp)
        exact fun hq => absurd ((hU.noThread hq).symm.trans halive) (by simp)
    | _ => exact hU.noThread
  noAsync := by
    cases h with
    | asyncDone =>
        have hnot := hA.not_clear hG rfl hU
        exact fun hq => absurd (Pc.seesNoAsync_clear hq) (by simp [hnot])
    | clearAsyncNotOk => exact fun _ => rfl
    | _ => exact hU.noAsync
  removed := by
    cases h with
    | handlerAdded =>
        rintro rfl
        exact absurd (hA.not_clear hG rfl hU) (by simp [Pc.ofClear])
    | handlerRemoved => exact fun _ => rfl
    | _ => exact hU.removed
  noHandler := by
    cases h with
    | handlerAdded | initDone =>
        have hnot := hA.not_clear hG rfl hU
        exact fun hq => absurd (Pc.seesNoHandler_clear hq) (by simp [hnot])
    | handlerRemoved => exact fun hq => ⟨(hU.noHandler hq).1, rfl⟩
    | clearInitNotOk => exact fun hq => ⟨rfl, (hU.noHandler hq).2⟩
    | _ => exact hU.noHandler
  asyncReset := by
    cases h with
    | asyncFirst =>
        have hnot := hA.not_clear hG rfl hU
        exact fun hq => absurd (Pc.seesAsyncReset_clear hq) (by simp [hnot])
    | clearAsyncReset => exact fun _ => rfl
    | _ => exact hU.asyncReset
  reset := by
    cases h with
    | initFirst =>
        have hnot := hA.not_clear hG rfl hU
        exact fun hq => absurd (Pc.seesReset_clear hq) (by simp [hnot])
    | clearInitReset => exact fun _ => rfl
    | _ => exact hU.reset
  freed := by
    cases h with
    | syncEnd =>
        have hnot := hA.not_clear hG rfl hU
        exact fun hq => absurd (Pc.seesFreed_clear hq).1 (by simp [hnot])
    | freed => exact fun _ => rfl
    | loopEnd =>
        have halive : v.thread = .alive := (hA.alive rfl).mpr (by simp)
        exact fun hq => absurd ((hU.noThread (Pc.seesFreed_clear hq).2).symm.trans halive) (by simp)
    | _ => exact hU.freed
  stop := by
    cases h with
    | asyncRun =>
        intro hq
        rcases Pc.seesStop_call hq with hclear | hloop
        · exact absurd (hA.not_clear hG rfl hU) (by simp [hclear])
        · -- there is no refresh thread to be told
          have halive : v.thread = .alive :=
            (hU.alive (hU.eq_none hloop.1)).mpr hloop.2
          exact absurd ((hA.noThread rfl).symm.trans halive) (by simp)
    | asyncStopped | clearStop => exact fun _ => rfl
    | _ => exact hU.stop
  alive := by
    intro hu
    have halive := hU.alive hu
    cases h with
    | threadCreated =>
        have hnone := hA.noThread rfl
        simp only [hnone, reduceCtorEq, false_iff, not_not] at halive
        simp [halive]
    | joined _ _ hexited =>
        simp only [hexited, reduceCtorEq, false_iff, not_not] at halive
        simp [halive]
    | begin | exit => exact absurd hu.symm htu
    | _ => exact halive
  cond := by
    intro hu
    have hcond := hU.cond hu
    cases h with
    | askSignalled | clearSignalled =>
        rw [← hcond]
        dsimp only
        split
        · next hasleep => simp [hasleep]
        · rfl
    | woken | spurious => exact absurd hu.symm htu
    | _ => exact hcond
  served := by
    intro hu
    cases h with
    | take | loopEnd => exact absurd hu.symm htu
    | _ => exact hU.served hu
  request := by
    cases h with
    | asyncRun =>
        rintro rfl
        have halive : v.thread = .alive := (hU.alive (hU.eq_none rfl)).mpr (by simp)
        exact absurd ((hA.noThread rfl).symm.trans halive) (by simp)
    | asyncStopped | clearStop => exact fun _ => .inr rfl
    | ask => exact fun _ => .inl rfl
    | take =>
        rintro rfl
        exact absurd (hU.eq_none rfl).symm htu
    | _ => exact hU.request
  taking := by
    cases h with
    | ask => exact fun _ => rfl
    | take =>
        rintro rfl
        exact absurd (hU.eq_none rfl).symm htu
    | _ => exact hU.taking
  before := by
    cases h with
    | syncEnd | freed | loopEnd =>
        exact fun _ hp => absurd (Pc.before_holds hp) (htogether .refresh rfl)
    | _ => exact hU.before

omit [DecidableEq ι] in
theorem At.others_unlock {l : Mutex} (h : Unlocks pc l v pc' v') (hA : At t pc v) (htu : t ≠ u)
    (hU : At u q v) : At u q v' := by
  cases h with
  | wait =>
      -- only the refresh thread sleeps
      have ht := hA.eq_none rfl
      exact { hU with cond := fun hu => absurd (ht.trans hu.symm) htu }
  | _ => exact hU

/-- The invariant is one. -/
theorem asserted : Asserted (refreshProgram abi ι outside) (fun pc l => pc.holds l = true)
    (Common abi start) At where
  acts h hG hA := by
    rcases h with h | ⟨l, h⟩
    · exact ⟨hG.run h hA, hA.run h hG⟩
    · exact ⟨hG.unlock h hA, hA.unlock h⟩
  lock h _ hA := hA.lock h
  others h hG hA htu htogether hU := by
    rcases h with h | ⟨l, h⟩
    · exact hA.others h hG htu htogether hU
    · exact hA.others_unlock h htu hU

/-! ## Runs -/

/-- Nobody has called yet. -/
def refreshInitial (ι : Type) (start : Process) : State (Thread ι) Pc (Vars ι) Mutex where
  pc t := if t.isNone then .absent else .idle
  vars := .initial ι start
  owner _ := none

/-- The states of any interleaving of calls. -/
def RefreshReachable (abi : Abi) (start : Process) :
    Trace.StatePred (State (Thread ι) Pc (Vars ι) Mutex) :=
  Trace.Reachable (· = refreshInitial ι start) (Step (refreshProgram abi ι True))

theorem RefreshReachable.next {s s' : State (Thread ι) Pc (Vars ι) Mutex}
    (h : RefreshReachable abi start s) (t : Thread ι)
    (hstep : StepBy (refreshProgram abi ι True) t s s') : RefreshReachable abi start s' :=
  Trace.Reachable.step h ⟨t, hstep⟩

omit [DecidableEq ι] in
theorem holds_initial (abi : Abi) (start : Process) :
    Holds (fun pc l => pc.holds l = true) (Common abi start) At (refreshInitial ι start) where
  owned l t := by
    cases t <;> cases l <;> simp [refreshInitial, Pc.holds]
  vars := by
    constructor <;> simp [refreshInitial, Vars.initial]
  pc t := by
    cases t <;> constructor <;>
      simp [refreshInitial, Vars.initial, Pc.ofLoop, Pc.ofRefresh, Pc.ofClear, Pc.initializing,
        Pc.creating, Pc.signalling, Pc.seesInited, Pc.seesInitOk, Pc.seesAsyncInited,
        Pc.seesAsyncInitOk, Pc.seesThread, Pc.seesNoThread, Pc.seesNoAsync, Pc.seesNoHandler,
        Pc.seesAsyncReset, Pc.seesReset, Pc.seesFreed, Pc.seesStop, Pc.before]

theorem holds_of_reachable {s : State (Thread ι) Pc (Vars ι) Mutex}
    (h : RefreshReachable abi start s) :
    Holds (fun pc l => pc.holds l = true) (Common abi start) At s := by
  refine Holds.of_reachable refreshAnnotated asserted ?_ h
  rintro _ rfl
  exact holds_initial abi start

/-- In any interleaving: no two threads refresh at once; a refresh starts from
what the effects before it have left, and nothing changes that until it ends; it
runs under the handler for `SIGSEGV`, which is installed at most once, as is the
refresh thread. -/
theorem refresh_safe {s : State (Thread ι) Pc (Vars ι) Mutex} (h : RefreshReachable abi start s) :
    (∀ t u, (s.pc t).holds .refresh = true → (s.pc u).holds .refresh = true → t = u) ∧
    s.vars.process = s.vars.log.foldr (fun e p => Effect.apply abi p e) start ∧
    (∀ t p, (s.pc t).before = some p → s.vars.handler = true ∧ p = s.vars.process) ∧
    (∀ t async, s.pc t = .initHandler async → s.vars.handler = false) ∧
    (∀ t, s.pc t = .asyncCreate → s.vars.thread = .none ∧ s.pc none = .absent) := by
  have hs := holds_of_reachable h
  refine ⟨fun t u => hs.owned.unique, hs.vars.process, fun t p hp => ⟨?_, (hs.pc t).before p hp⟩,
    fun t async ht => ((hs.pc t).fresh async ht).1, fun t ht => ?_⟩
  · cases t with
    | none =>
        -- the refresh thread lives under the handler
        have hne : s.pc none ≠ .absent := fun habsent => by simp [habsent, Pc.before] at hp
        have halive := ((hs.pc none).alive rfl).mpr hne
        exact (hs.vars.running (by simp [halive])).1
    | some i =>
        have hpc := (hs.pc (some i)).loop
        have hA := hs.pc (some i)
        cases hat : s.pc (some i) <;> simp [hat, Pc.before] at hp
        · rw [hat] at hA
          exact hs.vars.handler_of_initOk hA rfl (hA.initOk rfl)
        · simp [hat, Pc.ofLoop] at hpc
  · have hnone : s.vars.thread = .none := (hs.pc t).noThread (by simp [ht, Pc.seesNoThread])
    refine ⟨hnone, ?_⟩
    by_contra hne
    exact absurd (((hs.pc none).alive rfl).mpr hne) (by simp [hnone])

/-- One of two callers in its refresh. -/
theorem refresh_safe_refreshing :
    let start := Process.initial fun _ => 0
    ∃ s : State (Thread Bool) Pc (Vars Bool) Mutex, RefreshReachable .arm start s ∧
      s.pc (some true) = .syncRefresh start ∧ s.vars.handler = true := by
  intro start
  have h₀ : RefreshReachable .arm start (refreshInitial Bool start) := .init rfl
  have h₁ := h₀.next (some true) (.run (.callRefresh true _ false trivial rfl))
  have h₂ := h₁.next (some true) (.run (.initUnseen true _ false rfl))
  have h₃ := h₂.next (some true) (.lock (.init false) rfl)
  have h₄ := h₃.next (some true) (.run (.initFirst true _ false rfl))
  have h₅ := h₄.next (some true) (.run (.handlerAdded true _ false))
  have h₆ := h₅.next (some true) (.run (.initDone true _ false))
  have h₇ := h₆.next (some true) (.unlock (.init _ false))
  have h₈ := h₇.next (some true) (.run (.goSync true _ rfl))
  have h₉ := h₈.next (some true) (.lock .sync rfl)
  have h₁₀ := h₉.next (some true) (.run (.syncBegin true _))
  exact ⟨_, h₁₀, rfl, ((refresh_safe h₁₀).2.2.1 (some true) start rfl).1⟩

/-- A call finds the handler or the refresh thread missing only if the system has
refused it, or if another call is just about to report it. -/
theorem refresh_unknown {s : State (Thread ι) Pc (Vars ι) Mutex}
    (h : RefreshReachable abi start s) (i : ι) :
    (∀ async, s.pc (some i) = .initResult async → s.vars.initOk = false →
      s.vars.handlerFailed = true ∨ ∃ j ≠ i, (s.pc (some j)).initializing = true) ∧
    (s.pc (some i) = .asyncResult → s.vars.asyncInitOk = false →
      s.vars.createFailed = true ∨ ∃ j ≠ i, (s.pc (some j)).creating = true) := by
  have hs := holds_of_reachable h
  have hA := hs.pc (some i)
  constructor
  · intro async hpc hnot
    rw [hpc] at hA
    rcases hs.vars.failed (hA.inited rfl) hnot with hfailed | hsome | hclearing
    · exact .inl hfailed
    · -- the static is set, and its companion not yet
      rcases Option.ne_none_iff_exists'.mp hsome with ⟨j, hj⟩
      have hat := ((hs.pc (some j)).initializer j rfl).mp hj
      refine .inr ⟨j, ?_, hat⟩
      rintro rfl
      simp [hpc, Pc.initializing] at hat
    · exact absurd (hs.vars.clearing_eq_none hA rfl) hclearing
  · intro hpc hnot
    rw [hpc] at hA
    rcases hs.vars.createFailed (hA.asyncInited rfl) hnot with hfailed | hsome | hclearing
    · exact .inl hfailed
    · rcases Option.ne_none_iff_exists'.mp hsome with ⟨j, hj⟩
      have hat := ((hs.pc (some j)).creator j rfl).mp hj
      refine .inr ⟨j, ?_, hat⟩
      rintro rfl
      simp [hpc, Pc.creating] at hat
    · exact absurd (hs.vars.clearing_eq_none hA rfl) hclearing

/-- One caller looks while another is between the two statements. -/
theorem refresh_unknown_race :
    let start := Process.initial fun _ => 0
    ∃ s : State (Thread Bool) Pc (Vars Bool) Mutex, RefreshReachable .arm start s ∧
      s.pc (some false) = .initResult false ∧ s.vars.initOk = false ∧
      (s.vars.handlerFailed = true ∨ ∃ j ≠ false, (s.pc (some j)).initializing = true) := by
  intro start
  have h₀ : RefreshReachable .arm start (refreshInitial Bool start) := .init rfl
  have h₁ := h₀.next (some true) (.run (.callRefresh true _ false trivial rfl))
  have h₂ := h₁.next (some true) (.run (.initUnseen true _ false rfl))
  have h₃ := h₂.next (some true) (.lock (.init false) rfl)
  have h₄ := h₃.next (some true) (.run (.initFirst true _ false rfl))
  have h₅ := h₄.next (some false) (.run (.callRefresh false _ false trivial rfl))
  have h₆ := h₅.next (some false) (.run (.initSeen false _ false rfl))
  exact ⟨_, h₆, rfl, rfl, (refresh_unknown h₆ false).1 false rfl rfl⟩

/-- When `xh_core_clear` is about to return, the refresh thread has ended, the
handler is gone, the collections are empty and nothing is initialised. -/
theorem clear_resets {s : State (Thread ι) Pc (Vars ι) Mutex} (h : RefreshReachable abi start s)
    {i : ι} (hpc : s.pc (some i) = .cleared) :
    s.vars.inited = false ∧ s.vars.initOk = false ∧ s.vars.asyncInited = false ∧
      s.vars.asyncInitOk = false ∧ s.vars.handler = false ∧ s.vars.thread = .none ∧
      s.pc none = .absent ∧ (∀ j ≠ i, s.pc (some j) = .idle) ∧
      s.vars.process.core.hookInfo = [] ∧ s.vars.process.core.ignoreInfo = [] ∧
      s.vars.process.core.mapInfo = [] := by
  have hs := holds_of_reachable h
  have hA := hs.pc (some i)
  rw [hpc] at hA
  have hinited := hA.reset rfl
  have hasync := hA.asyncReset rfl
  have hfreed := hA.freed rfl
  have hthread : s.vars.thread = .none := hA.noThread rfl
  refine ⟨hinited, (hs.vars.notInited hinited).1, hasync, (hs.vars.notAsync hasync).2,
    (hs.vars.notInited hinited).2, hthread, ?_, fun j hj => ?_, ?_, ?_, ?_⟩
  · by_contra hne
    exact absurd (((hs.pc none).alive rfl).mpr hne) (by simp [hthread])
  · -- nobody else is in a call
    have hquiet := hA.quiet hs.vars rfl (fun heq => hj (Option.some.inj heq).symm) (hs.pc (some j))
    exact Pc.eq_idle (hs.pc (some j)).loop hquiet.2 hquiet.1
  · rw [hfreed]
  · rw [hfreed]
  · rw [hfreed]

/-- A request is open and the refresh thread has been woken. -/
def requested (start : Process) : State (Thread Bool) Pc (Vars Bool) Mutex where
  pc
    | none => .asleep
    | some _ => .idle
  vars := { Vars.initial Bool start with
    inited := true
    initOk := true
    asyncInited := true
    asyncInitOk := true
    running := true
    doRefresh := true
    handler := true
    thread := .alive
    cond := .signalled
    asked := 1 }
  owner _ := none

theorem requested_reachable (start : Process) :
    RefreshReachable .arm start (requested start) := by
  have h₀ : RefreshReachable .arm start (refreshInitial Bool start) := .init rfl
  have h₁ := h₀.next (some true) (.run (.callRefresh true _ true trivial rfl))
  have h₂ := h₁.next (some true) (.run (.initUnseen true _ true rfl))
  have h₃ := h₂.next (some true) (.lock (.init true) rfl)
  have h₄ := h₃.next (some true) (.run (.initFirst true _ true rfl))
  have h₅ := h₄.next (some true) (.run (.handlerAdded true _ true))
  have h₆ := h₅.next (some true) (.run (.initDone true _ true))
  have h₇ := h₆.next (some true) (.unlock (.init _ true))
  have h₈ := h₇.next (some true) (.run (.goAsync true _ rfl))
  have h₉ := h₈.next (some true) (.run (.asyncUnseen true _ rfl))
  have h₁₀ := h₉.next (some true) (.lock .async rfl)
  have h₁₁ := h₁₀.next (some true) (.run (.asyncFirst true _ rfl))
  have h₁₂ := h₁₁.next (some true) (.run (.asyncRun true _))
  have h₁₃ := h₁₂.next (some true) (.run (.threadCreated true _))
  have h₁₄ := h₁₃.next (some true) (.run (.asyncDone true _))
  have h₁₅ := h₁₄.next (some true) (.unlock (.async _))
  have h₁₆ := h₁₅.next (some true) (.run (.asyncPassed true _ rfl))
  have h₁₇ := h₁₆.next none (.run (.begin _ rfl))
  have h₁₈ := h₁₇.next none (.run (.loopOn _ rfl))
  have h₁₉ := h₁₈.next none (.lock .loop rfl)
  have h₂₀ := h₁₉.next none (.unlock (.wait _ ⟨rfl, rfl⟩))
  have h₂₁ := h₂₀.next (some true) (.lock .ask rfl)
  have h₂₂ := h₂₁.next (some true) (.run (.ask true _))
  have h₂₃ := h₂₂.next (some true) (.run (.askSignalled true _))
  have h₂₄ := h₂₃.next (some true) (.unlock (.ask _))
  have h₂₅ := h₂₄.next (some true) (.run (.leave true _ 0))
  refine (congrArg (RefreshReachable .arm start) ?_).mp h₂₅
  simp only [requested, State.mk.injEq]
  refine ⟨funext fun t => ?_, ?_, funext fun l => ?_⟩
  · rcases t with _ | (_ | _) <;> rfl
  · simp [Vars.initial, refreshInitial]
  · cases l <;> rfl
/-- The other caller clears everything, while the request is still open. -/
theorem clear_resets_requested :
    let start : Process :=
      { Process.initial fun _ => 0 with
        core := ⟨[⟨fun _ => true, "fork", 0x5000, some .oldFork⟩], [], [], true, true⟩ }
    ∃ s : State (Thread Bool) Pc (Vars Bool) Mutex, RefreshReachable .arm start s ∧
      s.pc (some false) = .cleared ∧ s.vars.inited = false ∧ s.vars.handler = false ∧
      s.vars.thread = .none ∧ s.pc none = .absent ∧ s.vars.process.core.hookInfo = [] := by
  intro start
  have h₀ := requested_reachable start
  have h₁ := h₀.next (some false) (.run (.callClear false _ trivial rfl fun _ => rfl))
  have h₂ := h₁.next (some false) (.run (.clearThread false _ rfl))
  have h₃ := h₂.next (some false) (.lock .clear rfl)
  have h₄ := h₃.next (some false) (.run (.clearStop false _))
  have h₅ := h₄.next (some false) (.run (.clearSignalled false _))
  have h₆ := h₅.next (some false) (.unlock (.clear _))
  -- the refresh thread wakes up and ends
  have h₇ := h₆.next none (.run (.woken _ rfl))
  have h₈ := h₇.next none (.lock .wake rfl)
  have h₉ := h₈.next none (.run (.waited _ (by simp)))
  have h₁₀ := h₉.next none (.run (.stopNow _ rfl))
  have h₁₁ := h₁₀.next none (.unlock (.stop _))
  have h₁₂ := h₁₁.next none (.run (.exit _))
  have h₁₃ := h₁₂.next (some false) (.run (.joined false _ rfl))
  have h₁₄ := h₁₃.next (some false) (.run (.clearAsyncNotOk false _))
  have h₁₅ := h₁₄.next (some false) (.run (.clearAsyncReset false _))
  have h₁₆ := h₁₅.next (some false) (.run (.clearInit false _ rfl))
  have h₁₇ := h₁₆.next (some false) (.run (.handlerRemoved false _))
  have h₁₈ := h₁₇.next (some false) (.run (.clearInitNotOk false _))
  have h₁₉ := h₁₈.next (some false) (.run (.clearInitReset false _))
  have h₂₀ := h₁₉.next (some false) (.lock .clearCore rfl)
  have h₂₁ := h₂₀.next (some false) (.lock .clearRefresh rfl)
  have h₂₂ := h₂₁.next (some false) (.run (.freed false _))
  have h₂₃ := h₂₂.next (some false) (.unlock (.clearRefresh _))
  have h₂₄ := h₂₃.next (some false) (.unlock (.clearCore _))
  have hreset := clear_resets (i := false) h₂₄ rfl
  exact ⟨_, h₂₄, rfl, hreset.1, hreset.2.2.2.2.1, hreset.2.2.2.2.2.1, hreset.2.2.2.2.2.2.1,
    hreset.2.2.2.2.2.2.2.2.1⟩

end Safety

end Yahfa
