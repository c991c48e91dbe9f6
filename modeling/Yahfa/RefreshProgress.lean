import Yahfa.RefreshSafety

/-!
# Every call of `xhook_refresh` ends, and every request is served

The steps of the program other than new calls and wake-ups without a signal
lower a number (`measure_refresh_lt`). Where they end nobody is blocked
(`idle_of_stuck`): the callers have returned, and the refresh thread, if there is
one, sleeps with nothing left to do.
-/

namespace Yahfa

open Threads Trace

/-! ## A number every step lowers -/

/-- How many steps a thread has left at most, those it makes others take included:
a created thread has 7, a signal wakes one for 6, a request keeps one busy for
12. -/
def Pc.weight : Pc → Nat
  | .idle => 0
  | .returned _ => 1
  | .initCheck _ => 45
  | .initLock _ => 44
  | .initRecheck _ => 43
  | .initHandler _ => 42
  | .initOk _ => 41
  | .initUnlock _ => 40
  | .initResult _ => 39
  | .asyncCheck => 38
  | .asyncLock => 37
  | .asyncRecheck => 36
  | .asyncRunning => 35
  | .asyncCreate => 34
  | .asyncStop => 26
  | .asyncOk => 26
  | .asyncUnlock => 25
  | .asyncResult => 24
  | .askLock => 23
  | .askDo => 22
  | .askSignal => 9
  | .askUnlock => 2
  | .syncLock => 5
  | .syncEnter => 4
  | .syncRefresh _ => 3
  | .syncUnlock => 2
  | .clearCheck => 24
  | .clearLock => 23
  | .clearRunning => 22
  | .clearSignal => 21
  | .clearUnlock => 14
  | .clearJoin => 13
  | .clearAsyncOk => 12
  | .clearAsyncInited => 11
  | .clearInitCheck => 10
  | .clearHandler => 9
  | .clearInitOk => 8
  | .clearInited => 7
  | .clearLockCore => 6
  | .clearLockRefresh => 5
  | .clearFree => 4
  | .clearUnlockRefresh => 3
  | .clearUnlockCore => 2
  | .cleared => 1
  | .absent => 0
  | .loopTest => 6
  | .loopLock => 5
  | .waitTest => 4
  | .asleep => 0
  | .wakeLock => 5
  | .stopTest => 3
  | .stopUnlock => 2
  | .stopped => 1
  | .takeDo => 1
  | .takeUnlock => 11
  | .loopRefreshLock => 10
  | .loopEnter => 9
  | .loopRefresh _ => 8
  | .loopRefreshUnlock => 7

/-- The steps the statics ask the refresh thread for. -/
def Vars.extra {ι : Type} (v : Vars ι) : Nat :=
  (if v.thread = .created then 7 else 0) + (if v.cond = .signalled then 6 else 0) +
    (if v.doRefresh then 12 else 0)

section Progress

variable {ι : Type} [DecidableEq ι] {abi : Abi} {start : Process} {v v' : Vars ι}
  {t : Thread ι} {pc pc' : Pc} {i : ι} {s s' : State (Thread ι) Pc (Vars ι) Mutex}

/-- A step lowers what its thread and the statics have left. -/
theorem weight_run (h : Run abi False t pc v pc' v') (hA : At t pc v) :
    pc'.weight + v'.extra < pc.weight + v.extra := by
  cases h with
  | callRefresh _ _ _ ho | callClear _ _ ho | spurious _ ho => exact ho.elim
  | threadCreated =>
      have hnone : v.thread = .none := hA.noThread rfl
      simp only [Pc.weight, Vars.extra, hnone, reduceCtorEq, if_true, if_false]
      omega
  | ask =>
      simp only [Pc.weight, Vars.extra, if_true]
      split <;> omega
  | askSignalled | clearSignalled =>
      simp only [Pc.weight, Vars.extra]
      split <;> split <;> split <;> omega
  | begin _ hcreated =>
      simp only [Pc.weight, Vars.extra, hcreated, reduceCtorEq, if_true, if_false]
      omega
  | woken _ hsignalled =>
      simp only [Pc.weight, Vars.extra, hsignalled, reduceCtorEq, if_true, if_false]
      omega
  | take =>
      -- there is a request to take
      have hdo := hA.taking rfl
      simp only [Pc.weight, Vars.extra, hdo, if_true, Bool.false_eq_true, if_false]
      omega
  | joined _ _ hexited =>
      simp only [Pc.weight, Vars.extra, hexited, reduceCtorEq, if_false]
      omega
  | exit =>
      have halive : v.thread = .alive := (hA.alive rfl).mpr (by simp)
      simp only [Pc.weight, Vars.extra, halive, reduceCtorEq, if_false]
      omega
  | _ =>
      simp only [Pc.weight, Vars.extra]
      omega

omit [DecidableEq ι] in
theorem weight_unlock {l : Mutex} (h : Unlocks pc l v pc' v') (hA : At t pc v) :
    pc'.weight + v'.extra < pc.weight + v.extra := by
  cases h with
  | wait _ hnothing =>
      have hidle : v.cond = .idle := by
        by_contra hne
        exact absurd ((hA.cond (hA.eq_none rfl)).mp hne) (by simp)
      simp only [Pc.weight, Vars.extra, hidle, reduceCtorEq, if_false]
      omega
  | _ =>
      simp only [Pc.weight]
      omega

theorem weight_lock {l : Mutex} (h : Locks pc l pc') : pc'.weight < pc.weight := by
  cases h <;> simp [Pc.weight]

/-- More may happen from outside. -/
theorem Run.mono {outside outside' : Prop} (ho : outside → outside')
    (h : Run abi outside t pc v pc' v') : Run abi outside' t pc v pc' v' := by
  cases h with
  | callRefresh _ _ _ hout hc => exact .callRefresh _ _ _ (ho hout) hc
  | callClear _ _ hout hc hb => exact .callClear _ _ (ho hout) hc hb
  | spurious _ hout => exact .spurious _ (ho hout)
  | _ => constructor <;> assumption

theorem RefreshReachable.internal (h : RefreshReachable abi start s)
    (hstep : Step (refreshProgram abi ι False) s s') : RefreshReachable abi start s' := by
  refine Trace.Reachable.step h ?_
  rcases hstep with ⟨t, hrun | hlock | hunlock⟩
  · exact ⟨t, .run (hrun.mono False.elim)⟩
  · next hfree => exact ⟨t, .lock hlock hfree⟩
  · exact ⟨t, .unlock hunlock⟩

theorem measure_refresh_lt [Fintype ι] (h : RefreshReachable abi start s)
    (hstep : Step (refreshProgram abi ι False) s s') :
    measure Pc.weight Vars.extra s' < measure Pc.weight Vars.extra s := by
  have hs := holds_of_reachable h
  rcases hstep with ⟨t, hstep⟩
  refine measure_lt ?_ weight_lock hstep
  rintro pc v (hrun | ⟨l, hunlock⟩)
  · exact weight_run hrun (hs.pc t)
  · exact weight_unlock hunlock (hs.pc t)

/-! ## Where the steps end -/

/-- No step is left but new calls and wake-ups without a signal. -/
def Stuck (abi : Abi) (s : State (Thread ι) Pc (Vars ι) Mutex) : Prop :=
  ∀ s', ¬ Step (refreshProgram abi ι False) s s'

/-- What a refresh finds is never nothing at all: here, no memory map. -/
instance : Inhabited Env :=
  ⟨⟨false, none, fun _ _ => 0, fun _ _ => none, fun _ _ => (0, 0), fun _ _ => 0, fun _ => false,
    fun _ => false⟩⟩

/-- A caller has returned, is at a mutex, waits for the refresh thread to end, or
has a step. -/
inductive CallerAt (abi : Abi) (v : Vars ι) (i : ι) : Pc → Prop
  | idle : CallerAt abi v i .idle
  | locks {pc pc' : Pc} {l : Mutex} (h : Locks pc l pc') : CallerAt abi v i pc
  | joins (h : v.thread ≠ .exited) : CallerAt abi v i .clearJoin
  | acts {pc pc' : Pc} {v' : Vars ι}
      (h : (refreshProgram abi ι False).Acts (some i) pc v pc' v') : CallerAt abi v i pc

/-- The refresh thread is not there, sleeps, is at a mutex, or has a step. -/
inductive LoopAt (abi : Abi) (v : Vars ι) : Pc → Prop
  | absent (h : v.thread ≠ .created) : LoopAt abi v .absent
  | asleep (h : v.cond ≠ .signalled) : LoopAt abi v .asleep
  | locks {pc pc' : Pc} {l : Mutex} (h : Locks pc l pc') : LoopAt abi v pc
  | acts {pc pc' : Pc} {v' : Vars ι}
      (h : (refreshProgram abi ι False).Acts none pc v pc' v') : LoopAt abi v pc

theorem callerAt (abi : Abi) (v : Vars ι) (i : ι) (hpc : pc.ofLoop = false) :
    CallerAt abi v i pc := by
  cases pc with
  | idle => exact .idle
  | returned r => exact .acts (.inl (.leave i v r))
  | initCheck a =>
      cases hv : v.inited with
      | true => exact .acts (.inl (.initSeen i v a hv))
      | false => exact .acts (.inl (.initUnseen i v a hv))
  | initLock a => exact .locks (.init a)
  | initRecheck a =>
      cases hv : v.inited with
      | true => exact .acts (.inl (.initAgain i v a hv))
      | false => exact .acts (.inl (.initFirst i v a hv))
  | initHandler a => exact .acts (.inl (.handlerAdded i v a))
  | initOk a => exact .acts (.inl (.initDone i v a))
  | initUnlock a => exact .acts (.inr ⟨_, .init v a⟩)
  | initResult a =>
      cases hv : v.initOk with
      | false => exact .acts (.inl (.initFailed i v a hv))
      | true =>
          cases a with
          | true => exact .acts (.inl (.goAsync i v hv))
          | false => exact .acts (.inl (.goSync i v hv))
  | asyncCheck =>
      cases hv : v.asyncInited with
      | true => exact .acts (.inl (.asyncSeen i v hv))
      | false => exact .acts (.inl (.asyncUnseen i v hv))
  | asyncLock => exact .locks .async
  | asyncRecheck =>
      cases hv : v.asyncInited with
      | true => exact .acts (.inl (.asyncAgain i v hv))
      | false => exact .acts (.inl (.asyncFirst i v hv))
  | asyncRunning => exact .acts (.inl (.asyncRun i v))
  | asyncCreate => exact .acts (.inl (.threadCreated i v))
  | asyncStop => exact .acts (.inl (.asyncStopped i v))
  | asyncOk => exact .acts (.inl (.asyncDone i v))
  | asyncUnlock => exact .acts (.inr ⟨_, .async v⟩)
  | asyncResult =>
      cases hv : v.asyncInitOk with
      | true => exact .acts (.inl (.asyncPassed i v hv))
      | false => exact .acts (.inl (.asyncFailed i v hv))
  | askLock => exact .locks .ask
  | askDo => exact .acts (.inl (.ask i v))
  | askSignal => exact .acts (.inl (.askSignalled i v))
  | askUnlock => exact .acts (.inr ⟨_, .ask v⟩)
  | syncLock => exact .locks .sync
  | syncEnter => exact .acts (.inl (.syncBegin i v))
  | syncRefresh p => exact .acts (.inl (.syncEnd i v p default))
  | syncUnlock => exact .acts (.inr ⟨_, .sync v⟩)
  | clearCheck =>
      cases hv : v.asyncInitOk with
      | true => exact .acts (.inl (.clearThread i v hv))
      | false => exact .acts (.inl (.clearNoThread i v hv))
  | clearLock => exact .locks .clear
  | clearRunning => exact .acts (.inl (.clearStop i v))
  | clearSignal => exact .acts (.inl (.clearSignalled i v))
  | clearUnlock => exact .acts (.inr ⟨_, .clear v⟩)
  | clearJoin =>
      by_cases hexited : v.thread = .exited
      · exact .acts (.inl (.joined i v hexited))
      · exact .joins hexited
  | clearAsyncOk => exact .acts (.inl (.clearAsyncNotOk i v))
  | clearAsyncInited => exact .acts (.inl (.clearAsyncReset i v))
  | clearInitCheck =>
      cases hv : v.initOk with
      | true => exact .acts (.inl (.clearInit i v hv))
      | false => exact .acts (.inl (.clearNoInit i v hv))
  | clearHandler => exact .acts (.inl (.handlerRemoved i v))
  | clearInitOk => exact .acts (.inl (.clearInitNotOk i v))
  | clearInited => exact .acts (.inl (.clearInitReset i v))
  | clearLockCore => exact .locks .clearCore
  | clearLockRefresh => exact .locks .clearRefresh
  | clearFree => exact .acts (.inl (.freed i v))
  | clearUnlockRefresh => exact .acts (.inr ⟨_, .clearRefresh v⟩)
  | clearUnlockCore => exact .acts (.inr ⟨_, .clearCore v⟩)
  | cleared => exact .acts (.inl (.leaveClear i v))
  | _ => simp [Pc.ofLoop] at hpc

theorem loopAt (abi : Abi) (v : Vars ι) (hpc : pc.ofLoop = true) : LoopAt abi v pc := by
  cases pc with
  | absent =>
      by_cases hcreated : v.thread = .created
      · exact .acts (.inl (.begin v hcreated))
      · exact .absent hcreated
  | loopTest =>
      cases hv : v.running with
      | true => exact .acts (.inl (.loopOn v hv))
      | false => exact .acts (.inl (.loopOff v hv))
  | loopLock => exact .locks .loop
  | waitTest =>
      by_cases hnothing : v.doRefresh = false ∧ v.running = true
      · exact .acts (.inr ⟨_, .wait v hnothing⟩)
      · exact .acts (.inl (.waited v hnothing))
  | asleep =>
      by_cases hsignalled : v.cond = .signalled
      · exact .acts (.inl (.woken v hsignalled))
      · exact .asleep hsignalled
  | wakeLock => exact .locks .wake
  | stopTest =>
      cases hv : v.running with
      | true => exact .acts (.inl (.stopNot v hv))
      | false => exact .acts (.inl (.stopNow v hv))
  | stopUnlock => exact .acts (.inr ⟨_, .stop v⟩)
  | stopped => exact .acts (.inl (.exit v))
  | takeDo => exact .acts (.inl (.take v))
  | takeUnlock => exact .acts (.inr ⟨_, .take v⟩)
  | loopRefreshLock => exact .locks .loopRefresh
  | loopEnter => exact .acts (.inl (.loopBegin v))
  | loopRefresh p => exact .acts (.inl (.loopEnd v p default))
  | loopRefreshUnlock => exact .acts (.inr ⟨_, .loopRefresh v⟩)
  | _ => simp [Pc.ofLoop] at hpc

theorem Stuck.not_acts (h : Stuck abi s) :
    ¬ (refreshProgram abi ι False).Acts t (s.pc t) s.vars pc v := by
  rintro (hrun | ⟨l, hunlock⟩)
  · exact h _ ⟨t, .run hrun⟩
  · exact h _ ⟨t, .unlock hunlock⟩

/-- Whoever is stuck at a mutex waits for somebody. -/
theorem Stuck.owner_ne_none (h : Stuck abi s) {l : Mutex} (hlocks : Locks (s.pc t) l pc) :
    s.owner l ≠ none := fun hfree => h _ ⟨t, .lock hlocks hfree⟩

/-- A thread that waits for a mutex has at most `xh_core_mutex`, and then waits for
the other one. -/
theorem Locks.holds {l k : Mutex} (h : Locks pc l pc') (hk : pc.holds k = true) :
    k = .core ∧ l = .refresh := by
  cases h <;> cases k <;> simp [Pc.holds] at hk ⊢

/-- Where no step is left, a thread is at a mutex or holds none. -/
theorem stuck_cases (h : RefreshReachable abi start s) (hstuck : Stuck abi s) (t : Thread ι) :
    (∃ l pc', Locks (s.pc t) l pc') ∨ (∀ k, (s.pc t).holds k = false) := by
  have hs := holds_of_reachable h
  cases t with
  | none =>
      have hat := loopAt abi s.vars (hs.pc none).loop
      generalize hpc : s.pc none = pc at hat
      cases hat with
      | absent | asleep => exact .inr fun k => by cases k <;> rfl
      | locks hlocks => exact .inl ⟨_, _, hlocks⟩
      | acts hacts => exact absurd (hpc ▸ hacts) hstuck.not_acts
  | some i =>
      have hat := callerAt abi s.vars i (hs.pc (some i)).loop
      generalize hpc : s.pc (some i) = pc at hat
      cases hat with
      | idle | joins => exact .inr fun k => by cases k <;> rfl
      | locks hlocks => exact .inl ⟨_, _, hlocks⟩
      | acts hacts => exact absurd (hpc ▸ hacts) hstuck.not_acts

/-- Where no step is left no mutex is held: not `xh_core_refresh_mutex`, since
nobody waits inside it, and so not `xh_core_mutex`. -/
theorem owner_eq_none_of_stuck (h : RefreshReachable abi start s) (hstuck : Stuck abi s)
    (l : Mutex) : s.owner l = none := by
  have hs := holds_of_reachable h
  have hrefresh : s.owner .refresh = none := by
    by_contra hne
    rcases Option.ne_none_iff_exists'.mp hne with ⟨t, ht⟩
    have hheld : (s.pc t).holds .refresh = true := (hs.owned _ _).mp ht
    rcases stuck_cases h hstuck t with ⟨l, pc', hlocks⟩ | hnone
    · exact absurd (hlocks.holds hheld).1 (by simp)
    · simp [hnone] at hheld
  cases l with
  | refresh => exact hrefresh
  | core =>
      by_contra hne
      rcases Option.ne_none_iff_exists'.mp hne with ⟨t, ht⟩
      have hheld : (s.pc t).holds .core = true := (hs.owned _ _).mp ht
      rcases stuck_cases h hstuck t with ⟨l, pc', hlocks⟩ | hnone
      · rcases hlocks.holds hheld with ⟨-, rfl⟩
        exact hstuck.owner_ne_none hlocks hrefresh
      · simp [hnone] at hheld

/-- Where no step is left, the refresh thread sleeps or is not there. -/
theorem loop_of_stuck (h : RefreshReachable abi start s) (hstuck : Stuck abi s) :
    (s.pc none = .absent ∧ s.vars.thread ≠ .created) ∨
      (s.pc none = .asleep ∧ s.vars.cond = .asleep) := by
  have hs := holds_of_reachable h
  have hat := loopAt abi s.vars (hs.pc none).loop
  have hcond := (hs.pc none).cond rfl
  generalize hpc : s.pc none = pc at hat hcond
  cases hat with
  | absent hcreated => exact .inl ⟨rfl, hcreated⟩
  | asleep hnot =>
      refine .inr ⟨rfl, ?_⟩
      have hsleeps : s.vars.cond ≠ .idle := hcond.mpr rfl
      cases hstatus : s.vars.cond with
      | idle => exact absurd hstatus hsleeps
      | asleep => rfl
      | signalled => exact absurd hstatus hnot
  | @locks _ pc' l hlocks =>
      exact absurd (owner_eq_none_of_stuck h hstuck l) (hstuck.owner_ne_none (hpc ▸ hlocks))
  | acts hacts => exact absurd (hpc ▸ hacts) hstuck.not_acts

/-- Where no step is left, a caller has returned or waits for the refresh thread. -/
theorem caller_of_stuck (h : RefreshReachable abi start s) (hstuck : Stuck abi s) (i : ι) :
    s.pc (some i) = .idle ∨ (s.pc (some i) = .clearJoin ∧ s.vars.thread ≠ .exited) := by
  have hs := holds_of_reachable h
  have hat := callerAt abi s.vars i (hs.pc (some i)).loop
  generalize hpc : s.pc (some i) = pc at hat
  cases hat with
  | idle => exact .inl rfl
  | joins hexited => exact .inr ⟨rfl, hexited⟩
  | @locks _ pc' l hlocks =>
      exact absurd (owner_eq_none_of_stuck h hstuck l) (hstuck.owner_ne_none (hpc ▸ hlocks))
  | acts hacts => exact absurd (hpc ▸ hacts) hstuck.not_acts

/-- Where no step is left, a sleeping refresh thread has nothing to do. -/
theorem nothing_of_stuck (h : RefreshReachable abi start s) (hstuck : Stuck abi s)
    (hcond : s.vars.cond = .asleep) : s.vars.doRefresh = false ∧ s.vars.running = true := by
  have hs := holds_of_reachable h
  refine hs.vars.wakeUp hcond ?_
  -- nobody stands between a change and its signal
  by_contra hne
  rcases Option.ne_none_iff_exists'.mp hne with ⟨i, hi⟩
  have hat := ((hs.pc (some i)).signaller i rfl).mp hi
  rcases caller_of_stuck h hstuck i with hpc | ⟨hpc, -⟩ <;> simp [hpc, Pc.signalling] at hat

/-- Where no step is left, every caller has returned. -/
theorem idle_of_stuck (h : RefreshReachable abi start s) (hstuck : Stuck abi s) (i : ι) :
    s.pc (some i) = .idle := by
  have hs := holds_of_reachable h
  rcases caller_of_stuck h hstuck i with hpc | ⟨hpc, hexited⟩
  · exact hpc
  · -- the refresh thread has been told to stop and does not sleep through it
    exfalso
    have hA := hs.pc (some i)
    rw [hpc] at hA
    rcases loop_of_stuck h hstuck with ⟨habsent, hcreated⟩ | ⟨-, hcond⟩
    · have halive : s.vars.thread ≠ .alive := fun halive =>
        ((hs.pc none).alive rfl).mp halive habsent
      cases hstatus : s.vars.thread with
      | none => exact hA.thread rfl hstatus
      | created => exact hcreated hstatus
      | alive => exact halive hstatus
      | exited => exact hexited hstatus
    · have hrunning := (nothing_of_stuck h hstuck hcond).2
      exact absurd ((hA.stop rfl).symm.trans hrunning) (by simp)

/-- Where no step is left, the refresh thread, if it has been set up, has served
every request. -/
theorem served_of_stuck (h : RefreshReachable abi start s) (hstuck : Stuck abi s)
    (hok : s.vars.asyncInitOk = true) :
    s.pc none = .asleep ∧ s.vars.served = s.vars.asked := by
  have hs := holds_of_reachable h
  have hclearing : s.vars.clearing = none := by
    by_contra hne
    rcases Option.ne_none_iff_exists'.mp hne with ⟨i, hi⟩
    have hat := ((hs.pc (some i)).clearing i rfl).mp hi
    simp [idle_of_stuck h hstuck i, Pc.ofClear] at hat
  have hthread : s.vars.thread ≠ .none := (hs.vars.asyncOk hok).resolve_right (by simp [hclearing])
  rcases loop_of_stuck h hstuck with ⟨habsent, hcreated⟩ | ⟨hasleep, hcond⟩
  · -- a thread that has ended has been told to
    exfalso
    have hrunning := (hs.vars.running hthread).2.resolve_right (by simp [hclearing])
    cases hstatus : s.vars.thread with
    | none => exact hthread hstatus
    | created => exact hcreated hstatus
    | alive => exact ((hs.pc none).alive rfl).mp hstatus habsent
    | exited => exact absurd ((hs.vars.exited hstatus).symm.trans hrunning) (by simp)
  · have hserved := (hs.pc none).served rfl (by simp [hasleep, Pc.hasTaken])
    exact ⟨hasleep, hserved.trans (hs.vars.taken (nothing_of_stuck h hstuck hcond).1)⟩

theorem RefreshReachable.steps (h : RefreshReachable abi start s)
    (hsteps : Relation.ReflTransGen (Step (refreshProgram abi ι False)) s s') :
    RefreshReachable abi start s' := by
  induction hsteps with
  | refl => exact h
  | tail _ hstep ih => exact ih.internal hstep

/-- From any state of any interleaving, the calls in progress come to an end:
there are at most as many more steps as the measure says, whichever threads take
them. Where they end all callers have returned, both mutexes are free and, if the
refresh thread has been set up, every request has been followed by a whole
refresh. -/
theorem refresh_completes [Fintype ι] (h : RefreshReachable abi start s) :
    (∀ n (f : Nat → State (Thread ι) Pc (Vars ι) Mutex), f 0 = s →
      (∀ k < n, Step (refreshProgram abi ι False) (f k) (f (k + 1))) →
      n ≤ measure Pc.weight Vars.extra s) ∧
    (∀ s', Relation.ReflTransGen (Step (refreshProgram abi ι False)) s s' → Stuck abi s' →
      (∀ i, s'.pc (some i) = .idle) ∧ (∀ l, s'.owner l = none) ∧
      (s'.vars.asyncInitOk = true → s'.pc none = .asleep ∧ s'.vars.served = s'.vars.asked)) := by
  constructor
  · intro n f hzero hsteps
    -- each step lowers the measure by one at least
    have hlower : ∀ k ≤ n, RefreshReachable abi start (f k) ∧
        measure Pc.weight Vars.extra (f k) + k ≤ measure Pc.weight Vars.extra s := by
      intro k hk
      induction k with
      | zero => exact ⟨hzero ▸ h, by rw [hzero]; exact le_refl _⟩
      | succ k ih =>
          rcases ih (Nat.le_of_succ_le hk) with ⟨hreach, hle⟩
          have hlt := measure_refresh_lt hreach (hsteps k hk)
          exact ⟨hreach.internal (hsteps k hk), by omega⟩
    have hend := (hlower n (le_refl n)).2
    omega
  · intro s' hsteps hstuck
    have hreach := h.steps hsteps
    exact ⟨idle_of_stuck hreach hstuck, owner_eq_none_of_stuck hreach hstuck,
      served_of_stuck hreach hstuck⟩

/-- A request is open, and the refresh thread has been woken for it. -/
theorem refresh_completes_requested :
    let s := requested (.initial fun _ => 0)
    s.vars.served < s.vars.asked ∧
    (∀ n (f : Nat → State (Thread Bool) Pc (Vars Bool) Mutex), f 0 = s →
      (∀ k < n, Step (refreshProgram .arm Bool False) (f k) (f (k + 1))) →
      n ≤ measure Pc.weight Vars.extra s) ∧
    ∀ s', Relation.ReflTransGen (Step (refreshProgram .arm Bool False)) s s' → Stuck .arm s' →
      (∀ i, s'.pc (some i) = .idle) ∧ (∀ l, s'.owner l = none) ∧
      (s'.vars.asyncInitOk = true → s'.pc none = .asleep ∧ s'.vars.served = s'.vars.asked) := by
  intro s
  exact ⟨Nat.zero_lt_one, refresh_completes (requested_reachable (.initial fun _ => 0))⟩

end Progress

end Yahfa
