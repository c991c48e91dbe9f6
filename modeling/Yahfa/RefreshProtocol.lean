import Yahfa.Xhook
import Yahfa.Base.Threads

/-!
# Concurrent calls of `xhook_refresh`

Any number of threads call `xh_core_refresh`, for a refresh of their own or one
by the refresh thread that the first such call creates. `xh_core_mutex` and
`xh_core_cond` guard the statics and wake the refresh thread,
`xh_core_refresh_mutex` guards the refreshes. One step of a thread is one access
to a static or one call into the system; the statics are the variables, and what
a refresh does is `xhCoreRefreshImpl`.

`xh_core_clear` is called while no other call is in progress: `busy` and
`clearing` keep track of the calls. These, the counters of requests and the log
are read by no step of the code.
-/

namespace Yahfa

open Threads

/-- The threads: callers, and `none` for the refresh thread. -/
abbrev Thread (ι : Type) := Option ι

/-- The mutexes. -/
inductive Mutex where
  /-- `xh_core_mutex` -/
  | core
  /-- `xh_core_refresh_mutex` -/
  | refresh
deriving DecidableEq, Repr

/-- Where a thread stands: in front of the statement it executes next. -/
inductive Pc where
  | idle
  | returned (r : Nat)
  -- `xh_core_init_once`
  | initCheck (async : Bool)
  | initLock (async : Bool)
  | initRecheck (async : Bool)
  | initHandler (async : Bool)
  | initOk (async : Bool)
  | initUnlock (async : Bool)
  | initResult (async : Bool)
  -- `xh_core_init_async_once`
  | asyncCheck
  | asyncLock
  | asyncRecheck
  | asyncRunning
  | asyncCreate
  | asyncStop
  | asyncOk
  | asyncUnlock
  | asyncResult
  -- the two ways to refresh
  | askLock
  | askDo
  | askSignal
  | askUnlock
  | syncLock
  | syncEnter
  | syncRefresh (before : Process)
  | syncUnlock
  -- `xh_core_clear`
  | clearCheck
  | clearLock
  | clearRunning
  | clearSignal
  | clearUnlock
  | clearJoin
  | clearAsyncOk
  | clearAsyncInited
  | clearInitCheck
  | clearHandler
  | clearInitOk
  | clearInited
  | clearLockCore
  | clearLockRefresh
  | clearFree
  | clearUnlockRefresh
  | clearUnlockCore
  | cleared
  -- `xh_core_refresh_thread_func`
  | absent
  | loopTest
  | loopLock
  | waitTest
  | asleep
  | wakeLock
  | stopTest
  | stopUnlock
  | stopped
  | takeDo
  | takeUnlock
  | loopRefreshLock
  | loopEnter
  | loopRefresh (before : Process)
  | loopRefreshUnlock

/-- The refresh thread, as `pthread_create` and `pthread_join` see it. -/
inductive ThreadStatus where
  | none
  | created
  | alive
  | exited
deriving DecidableEq, Repr

/-- The refresh thread and `xh_core_cond`. -/
inductive CondStatus where
  | idle
  | asleep
  | signalled
deriving DecidableEq, Repr

/-- What changes the tree of libraries and the slots: a refresh, with what it
finds, or the end of everything in `xh_core_clear`. -/
inductive Effect where
  | refresh (env : Env)
  | clear

/-- `xh_core_clear` frees the three collections. -/
def xhCoreFree (s : Process) : Process :=
  { s with core := { s.core with hookInfo := [], ignoreInfo := [], mapInfo := [] } }

/-- One effect after another. -/
def Effect.apply (abi : Abi) (s : Process) : Effect → Process
  | .refresh env => xhCoreRefreshImpl abi env s
  | .clear => xhCoreFree s

/-- The statics, and what goes on around them. -/
structure Vars (ι : Type) where
  /-- `xh_core_inited` -/
  inited : Bool
  /-- `xh_core_init_ok` -/
  initOk : Bool
  /-- `xh_core_async_inited` -/
  asyncInited : Bool
  /-- `xh_core_async_init_ok` -/
  asyncInitOk : Bool
  /-- `xh_core_refresh_thread_running` -/
  running : Bool
  /-- `xh_core_refresh_thread_do` -/
  doRefresh : Bool
  /-- The handler of `xhook` is the one for `SIGSEGV`. -/
  handler : Bool
  thread : ThreadStatus
  cond : CondStatus
  process : Process
  /-- The calls of `xh_core_refresh` in progress. -/
  busy : ι → Bool
  /-- The call of `xh_core_clear` in progress. -/
  clearing : Option ι
  /-- The callers between two statements that belong together. -/
  initializer : Option ι
  creator : Option ι
  signaller : Option ι
  /-- A `sigaction` or a `pthread_create` has failed. -/
  handlerFailed : Bool
  createFailed : Bool
  /-- The requests made, those the refresh thread has taken, and those it has
  refreshed for. -/
  asked : Nat
  taken : Nat
  served : Nat
  /-- The effects so far, latest first. -/
  log : List Effect

/-- The library just loaded. -/
def Vars.initial (ι : Type) (process : Process) : Vars ι where
  inited := false
  initOk := false
  asyncInited := false
  asyncInitOk := false
  running := false
  doRefresh := false
  handler := false
  thread := .none
  cond := .idle
  process := process
  busy _ := false
  clearing := none
  initializer := none
  creator := none
  signaller := none
  handlerFailed := false
  createFailed := false
  asked := 0
  taken := 0
  served := 0
  log := []

section Steps

variable {ι : Type} [DecidableEq ι]

/-- The steps that take and release no mutex. `outside` allows those nobody waits
for: a new call, and a wake-up without a signal. -/
inductive Run (abi : Abi) (outside : Prop) : Thread ι → Pc → Vars ι → Pc → Vars ι → Prop
  | callRefresh (i : ι) (v : Vars ι) (async : Bool) (ho : outside) (hc : v.clearing = none) :
      Run abi outside (some i) .idle v (.initCheck async)
        { v with busy := Function.update v.busy i true }
  | callClear (i : ι) (v : Vars ι) (ho : outside) (hc : v.clearing = none)
      (hb : ∀ j, v.busy j = false) :
      Run abi outside (some i) .idle v .clearCheck { v with clearing := some i }
  | leave (i : ι) (v : Vars ι) (r : Nat) :
      Run abi outside (some i) (.returned r) v .idle
        { v with busy := Function.update v.busy i false }
  | leaveClear (i : ι) (v : Vars ι) :
      Run abi outside (some i) .cleared v .idle { v with clearing := none }
  -- if(xh_core_inited) return;
  | initSeen (i : ι) (v : Vars ι) (async : Bool) (h : v.inited = true) :
      Run abi outside (some i) (.initCheck async) v (.initResult async) v
  | initUnseen (i : ι) (v : Vars ι) (async : Bool) (h : v.inited = false) :
      Run abi outside (some i) (.initCheck async) v (.initLock async) v
  -- if(xh_core_inited) goto end;
  | initAgain (i : ι) (v : Vars ι) (async : Bool) (h : v.inited = true) :
      Run abi outside (some i) (.initRecheck async) v (.initUnlock async) v
  -- xh_core_inited = 1;
  | initFirst (i : ι) (v : Vars ι) (async : Bool) (h : v.inited = false) :
      Run abi outside (some i) (.initRecheck async) v (.initHandler async)
        { v with inited := true, initializer := some i }
  -- if(0 != xh_core_add_sigsegv_handler()) goto end;
  | handlerAdded (i : ι) (v : Vars ι) (async : Bool) :
      Run abi outside (some i) (.initHandler async) v (.initOk async) { v with handler := true }
  | handlerRefused (i : ι) (v : Vars ι) (async : Bool) :
      Run abi outside (some i) (.initHandler async) v (.initUnlock async)
        { v with handlerFailed := true, initializer := none }
  -- xh_core_init_ok = 1;
  | initDone (i : ι) (v : Vars ι) (async : Bool) :
      Run abi outside (some i) (.initOk async) v (.initUnlock async)
        { v with initOk := true, initializer := none }
  -- if(!xh_core_init_ok) return XH_ERRNO_UNKNOWN;
  | initFailed (i : ι) (v : Vars ι) (async : Bool) (h : v.initOk = false) :
      Run abi outside (some i) (.initResult async) v (.returned xhErrnoUnknown) v
  | goAsync (i : ι) (v : Vars ι) (h : v.initOk = true) :
      Run abi outside (some i) (.initResult true) v .asyncCheck v
  | goSync (i : ι) (v : Vars ι) (h : v.initOk = true) :
      Run abi outside (some i) (.initResult false) v .syncLock v
  -- if(xh_core_async_inited) return;
  | asyncSeen (i : ι) (v : Vars ι) (h : v.asyncInited = true) :
      Run abi outside (some i) .asyncCheck v .asyncResult v
  | asyncUnseen (i : ι) (v : Vars ι) (h : v.asyncInited = false) :
      Run abi outside (some i) .asyncCheck v .asyncLock v
  -- if(xh_core_async_inited) goto end;
  | asyncAgain (i : ι) (v : Vars ι) (h : v.asyncInited = true) :
      Run abi outside (some i) .asyncRecheck v .asyncUnlock v
  -- xh_core_async_inited = 1;
  | asyncFirst (i : ι) (v : Vars ι) (h : v.asyncInited = false) :
      Run abi outside (some i) .asyncRecheck v .asyncRunning
        { v with asyncInited := true, creator := some i }
  -- xh_core_refresh_thread_running = 1;
  | asyncRun (i : ι) (v : Vars ι) :
      Run abi outside (some i) .asyncRunning v .asyncCreate { v with running := true }
  -- if(0 != pthread_create(..))
  | threadCreated (i : ι) (v : Vars ι) :
      Run abi outside (some i) .asyncCreate v .asyncOk { v with thread := .created }
  | threadRefused (i : ι) (v : Vars ι) :
      Run abi outside (some i) .asyncCreate v .asyncStop { v with createFailed := true }
  -- xh_core_refresh_thread_running = 0; goto end;
  | asyncStopped (i : ι) (v : Vars ι) :
      Run abi outside (some i) .asyncStop v .asyncUnlock
        { v with running := false, creator := none }
  -- xh_core_async_init_ok = 1;
  | asyncDone (i : ι) (v : Vars ι) :
      Run abi outside (some i) .asyncOk v .asyncUnlock
        { v with asyncInitOk := true, creator := none }
  -- if(!xh_core_async_init_ok) return XH_ERRNO_UNKNOWN;
  | asyncFailed (i : ι) (v : Vars ι) (h : v.asyncInitOk = false) :
      Run abi outside (some i) .asyncResult v (.returned xhErrnoUnknown) v
  | asyncPassed (i : ι) (v : Vars ι) (h : v.asyncInitOk = true) :
      Run abi outside (some i) .asyncResult v .askLock v
  -- xh_core_refresh_thread_do = 1;
  | ask (i : ι) (v : Vars ι) :
      Run abi outside (some i) .askDo v .askSignal
        { v with doRefresh := true, asked := v.asked + 1, signaller := some i }
  -- pthread_cond_signal(&xh_core_cond);
  | askSignalled (i : ι) (v : Vars ι) :
      Run abi outside (some i) .askSignal v .askUnlock
        { v with cond := if v.cond = .asleep then .signalled else v.cond, signaller := none }
  -- xh_core_refresh_impl();
  | syncBegin (i : ι) (v : Vars ι) :
      Run abi outside (some i) .syncEnter v (.syncRefresh v.process) v
  | syncEnd (i : ι) (v : Vars ι) (before : Process) (env : Env) :
      Run abi outside (some i) (.syncRefresh before) v .syncUnlock
        { v with process := xhCoreRefreshImpl abi env before, log := .refresh env :: v.log }
  -- if(xh_core_async_init_ok)
  | clearThread (i : ι) (v : Vars ι) (h : v.asyncInitOk = true) :
      Run abi outside (some i) .clearCheck v .clearLock v
  | clearNoThread (i : ι) (v : Vars ι) (h : v.asyncInitOk = false) :
      Run abi outside (some i) .clearCheck v .clearAsyncInited v
  -- xh_core_refresh_thread_running = 0;
  | clearStop (i : ι) (v : Vars ι) :
      Run abi outside (some i) .clearRunning v .clearSignal
        { v with running := false, signaller := some i }
  -- pthread_cond_signal(&xh_core_cond);
  | clearSignalled (i : ι) (v : Vars ι) :
      Run abi outside (some i) .clearSignal v .clearUnlock
        { v with cond := if v.cond = .asleep then .signalled else v.cond, signaller := none }
  -- pthread_join(xh_core_refresh_thread_tid, NULL);
  | joined (i : ι) (v : Vars ι) (h : v.thread = .exited) :
      Run abi outside (some i) .clearJoin v .clearAsyncOk { v with thread := .none }
  -- xh_core_async_init_ok = 0;
  | clearAsyncNotOk (i : ι) (v : Vars ι) :
      Run abi outside (some i) .clearAsyncOk v .clearAsyncInited { v with asyncInitOk := false }
  -- xh_core_async_inited = 0;
  | clearAsyncReset (i : ι) (v : Vars ι) :
      Run abi outside (some i) .clearAsyncInited v .clearInitCheck
        { v with asyncInited := false, createFailed := false }
  -- if(xh_core_init_ok)
  | clearInit (i : ι) (v : Vars ι) (h : v.initOk = true) :
      Run abi outside (some i) .clearInitCheck v .clearHandler v
  | clearNoInit (i : ι) (v : Vars ι) (h : v.initOk = false) :
      Run abi outside (some i) .clearInitCheck v .clearInited v
  -- xh_core_del_sigsegv_handler();
  | handlerRemoved (i : ι) (v : Vars ι) :
      Run abi outside (some i) .clearHandler v .clearInitOk { v with handler := false }
  -- xh_core_init_ok = 0;
  | clearInitNotOk (i : ι) (v : Vars ι) :
      Run abi outside (some i) .clearInitOk v .clearInited { v with initOk := false }
  -- xh_core_inited = 0;
  | clearInitReset (i : ι) (v : Vars ι) :
      Run abi outside (some i) .clearInited v .clearLockCore
        { v with inited := false, handlerFailed := false }
  -- free all map info, all hook info, all ignore info
  | freed (i : ι) (v : Vars ι) :
      Run abi outside (some i) .clearFree v .clearUnlockRefresh
        { v with process := xhCoreFree v.process, log := .clear :: v.log }
  -- xh_core_refresh_thread_func
  | begin (v : Vars ι) (h : v.thread = .created) :
      Run abi outside none .absent v .loopTest { v with thread := .alive }
  -- while(xh_core_refresh_thread_running)
  | loopOn (v : Vars ι) (h : v.running = true) : Run abi outside none .loopTest v .loopLock v
  | loopOff (v : Vars ι) (h : v.running = false) : Run abi outside none .loopTest v .stopped v
  -- while(!xh_core_refresh_thread_do && xh_core_refresh_thread_running)
  | waited (v : Vars ι) (h : ¬ (v.doRefresh = false ∧ v.running = true)) :
      Run abi outside none .waitTest v .stopTest v
  | woken (v : Vars ι) (h : v.cond = .signalled) :
      Run abi outside none .asleep v .wakeLock { v with cond := .idle }
  | spurious (v : Vars ι) (ho : outside) :
      Run abi outside none .asleep v .wakeLock { v with cond := .idle }
  -- if(!xh_core_refresh_thread_running)
  | stopNot (v : Vars ι) (h : v.running = true) : Run abi outside none .stopTest v .takeDo v
  | stopNow (v : Vars ι) (h : v.running = false) : Run abi outside none .stopTest v .stopUnlock v
  -- xh_core_refresh_thread_do = 0;
  | take (v : Vars ι) :
      Run abi outside none .takeDo v .takeUnlock { v with doRefresh := false, taken := v.asked }
  -- xh_core_refresh_impl();
  | loopBegin (v : Vars ι) :
      Run abi outside none .loopEnter v (.loopRefresh v.process) v
  | loopEnd (v : Vars ι) (before : Process) (env : Env) :
      Run abi outside none (.loopRefresh before) v .loopRefreshUnlock
        { v with
          process := xhCoreRefreshImpl abi env before
          log := .refresh env :: v.log
          served := v.taken }
  -- return NULL;
  | exit (v : Vars ι) :
      Run abi outside none .stopped v .absent { v with thread := .exited }

/-- The calls of `pthread_mutex_lock`. A thread that has waited takes the mutex
again. -/
inductive Locks : Pc → Mutex → Pc → Prop
  | init (async : Bool) : Locks (.initLock async) .core (.initRecheck async)
  | async : Locks .asyncLock .core .asyncRecheck
  | ask : Locks .askLock .core .askDo
  | sync : Locks .syncLock .refresh .syncEnter
  | clear : Locks .clearLock .core .clearRunning
  | clearCore : Locks .clearLockCore .core .clearLockRefresh
  | clearRefresh : Locks .clearLockRefresh .refresh .clearFree
  | loop : Locks .loopLock .core .waitTest
  | wake : Locks .wakeLock .core .waitTest
  | loopRefresh : Locks .loopRefreshLock .refresh .loopEnter

/-- The calls of `pthread_mutex_unlock`, and `pthread_cond_wait`, which releases
the mutex and falls asleep at once. -/
inductive Unlocks : Pc → Mutex → Vars ι → Pc → Vars ι → Prop
  | init (v : Vars ι) (async : Bool) : Unlocks (.initUnlock async) .core v (.initResult async) v
  | async (v : Vars ι) : Unlocks .asyncUnlock .core v .asyncResult v
  | ask (v : Vars ι) : Unlocks .askUnlock .core v (.returned 0) v
  | sync (v : Vars ι) : Unlocks .syncUnlock .refresh v (.returned 0) v
  | clear (v : Vars ι) : Unlocks .clearUnlock .core v .clearJoin v
  | clearRefresh (v : Vars ι) : Unlocks .clearUnlockRefresh .refresh v .clearUnlockCore v
  | clearCore (v : Vars ι) : Unlocks .clearUnlockCore .core v .cleared v
  | wait (v : Vars ι) (h : v.doRefresh = false ∧ v.running = true) :
      Unlocks .waitTest .core v .asleep { v with cond := .asleep }
  | stop (v : Vars ι) : Unlocks .stopUnlock .core v .stopped v
  | take (v : Vars ι) : Unlocks .takeUnlock .core v .loopRefreshLock v
  | loopRefresh (v : Vars ι) : Unlocks .loopRefreshUnlock .refresh v .loopTest v

/-- The program all threads run. -/
def refreshProgram (abi : Abi) (ι : Type) [DecidableEq ι] (outside : Prop) :
    Program (Thread ι) Pc (Vars ι) Mutex where
  run := Run abi outside
  lock := Locks
  unlock := Unlocks

end Steps

end Yahfa
