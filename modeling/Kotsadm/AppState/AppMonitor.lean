import Kotsadm.Lib.Machine
import Kotsadm.Lib.Processes
import Kotsadm.AppState.ResourceStates

/-!
# AppMonitor — the informers of an app, and the ones that replaced them

Each `Apply` cancels the goroutine of the one before and starts a new one; all of them send on
`appStatusCh`, which has no buffer.  A cancelled goroutine ends when it next gets to its `select`
and takes `ctx.Done()` there; until then it sends whatever it has to send.
-/

namespace Kotsadm.AppState

/-- Where `runInformers` is. -/
inductive InformersPhase where
  -- before or in its first send
  | resetting
  | selecting
  -- in the send after a resource state
  | updating
  | done
  deriving DecidableEq, Repr

/-- A goroutine of `runInformers`. -/
structure Informers where
  appStatus : AppStatus
  phase : InformersPhase := .resetting
  -- its context is done
  cancelled : Bool := false
  deriving DecidableEq, Repr

def InformersPhase.Sends : InformersPhase → Bool
  | .resetting | .updating => true
  | .selecting | .done => false

/-- A status received from `appStatusCh`, with the index of the `Apply` it is from. -/
structure Delivery where
  generation : Nat
  reset : Bool
  appStatus : AppStatus
  deriving DecidableEq, Repr

/-- Where `AppMonitor.run` is; from `closing` on it runs its deferred calls. -/
inductive RunPhase where
  | selecting
  | closing
  | closingInformers
  | done
  deriving DecidableEq, Repr

structure AppMonitor where
  targetNamespace : String
  appID : String
  phase : RunPhase := .selecting
  -- the context is done
  cancelled : Bool := false
  appStatusClosed : Bool := false
  informersClosed : Bool := false
  -- one for each `Apply`, the first one first
  generations : List Informers := []
  -- history, newest first
  delivered : List Delivery := []
  panicked : Bool := false

namespace AppMonitor

inductive Action where
  -- `informersCh` is received from
  | apply (informers : List StatusInformer) (now : Int)
  | shutdown
  -- AppMonitor.run
  | stop
  | closeAppStatus
  | closeInformers
  -- goroutine `i`
  | deliver (i : Nat)
  | event (i : Nat) (resourceState : ResourceState) (now : Int)
  | finish (i : Nat)
  | panic (i : Nat)

/-- A goroutine goes on. -/
def put (m : AppMonitor) (i : Nat) (g : Informers) (phase : InformersPhase) : AppMonitor :=
  { m with generations := m.generations.set i { g with phase } }

/-- The last goroutine is cancelled and a new one is started. -/
def apply (sort : Reorder ResourceState) (m : AppMonitor) (informers : List StatusInformer)
    (now : Int) : AppMonitor :=
  let prev := m.generations.length - 1
  let normalized := normalizeStatusInformers informers m.targetNamespace
  { m with
    generations := m.generations.modify prev (fun g => { g with cancelled := true }) ++
      [{ appStatus := resetStatus sort m.appID normalized now, cancelled := m.cancelled }] }

/-- The send of goroutine `i` is received. -/
def deliver (m : AppMonitor) (i : Nat) (g : Informers) : Option AppMonitor :=
  if g.phase.Sends && !m.appStatusClosed then
    some { m.put i g .selecting with
      delivered := ⟨i, g.phase = .resetting, g.appStatus⟩ :: m.delivered }
  else none

/-- A case of the `select` in goroutine `i`; with several to choose from, it may be any. -/
def event (sort : Reorder ResourceState) (m : AppMonitor) (i : Nat) (g : Informers)
    (resourceState : ResourceState) (now : Int) : Option AppMonitor :=
  if g.phase = .selecting then
    some (m.put i { g with appStatus := g.appStatus.receive sort resourceState now } .updating)
  else none

def finish (m : AppMonitor) (i : Nat) (g : Informers) : Option AppMonitor :=
  if g.phase = .selecting && g.cancelled then some (m.put i g .done) else none

/-- A send on the closed channel. -/
def panic (m : AppMonitor) (i : Nat) (g : Informers) : Option AppMonitor :=
  if g.phase.Sends && m.appStatusClosed then some { m.put i g .done with panicked := true }
  else none

def step (sort : Reorder ResourceState) (m : AppMonitor) : Action → Option AppMonitor
  | .apply informers now =>
    if m.phase = .selecting then some (m.apply sort informers now) else none
  | .shutdown =>
    some { m with
      cancelled := true
      generations := m.generations.map fun g => { g with cancelled := true } }
  | .stop =>
    if m.phase = .selecting && m.cancelled then some { m with phase := .closing } else none
  | .closeAppStatus =>
    if m.phase = .closing then some { m with phase := .closingInformers, appStatusClosed := true }
    else none
  | .closeInformers =>
    if m.phase = .closingInformers then some { m with phase := .done, informersClosed := true }
    else none
  | .deliver i => (m.generations[i]?).bind fun g => m.deliver i g
  | .event i resourceState now =>
    (m.generations[i]?).bind fun g => m.event sort i g resourceState now
  | .finish i => (m.generations[i]?).bind fun g => m.finish i g
  | .panic i => (m.generations[i]?).bind fun g => m.panic i g

def machine (sort : Reorder ResourceState) : Machine AppMonitor Action := ⟨step sort⟩

/-- `NewAppMonitor` -/
def Init (m : AppMonitor) : Prop :=
  m = { targetNamespace := m.targetNamespace, appID := m.appID }

/-- After the reset of an `Apply`, nothing of an earlier one is received. -/
def Clean (delivered : List Delivery) : Prop :=
  delivered.Pairwise fun later earlier =>
    earlier.reset = true → earlier.generation ≤ later.generation

/-- A reset is received only when no earlier goroutine is still to send, and an earlier goroutine
takes no resource state afterwards. -/
def Guard (m : AppMonitor) : Action → Prop
  | .deliver i => ∀ g, m.generations[i]? = some g → g.phase = .resetting →
      ∀ j earlier, j < i → m.generations[j]? = some earlier → earlier.phase.Sends = false
  | .event i _ _ => ∀ d ∈ m.delivered, d.reset = true → d.generation ≤ i
  | _ => True

/-! ## What a step can do -/

section

variable {sort : Reorder ResourceState} {m m' : AppMonitor}

/-- A new goroutine is there, and the others are where they were. -/
theorem getElem?_apply {informers : List StatusInformer} {now : Int} {j : Nat} {other : Informers}
    (h : (m.apply sort informers now).generations[j]? = some other) :
    (j = m.generations.length ∧ other.phase = .resetting) ∨
      ∃ g, m.generations[j]? = some g ∧ g.phase = other.phase := by
  rcases Processes.getElem?_concat_cases h with ⟨hj, rfl⟩ | ⟨-, hold⟩
  · rw [List.length_modify] at hj
    exact .inl ⟨hj, rfl⟩
  · rw [List.getElem?_modify] at hold
    obtain ⟨g, hg, rfl⟩ := Option.map_eq_some_iff.mp hold
    refine .inr ⟨g, hg, ?_⟩
    split <;> rfl

/-- What goroutine `i` does in a step. -/
inductive Goes (sort : Reorder ResourceState) (m : AppMonitor) (i : Nat) (g : Informers) :
    Action → AppMonitor → Prop
  | deliver : g.phase.Sends = true → m.appStatusClosed = false →
      Goes sort m i g (.deliver i) { m.put i g .selecting with
        delivered := ⟨i, g.phase = .resetting, g.appStatus⟩ :: m.delivered }
  | event (resourceState : ResourceState) (now : Int) :
      Goes sort m i g (.event i resourceState now)
        (m.put i { g with appStatus := g.appStatus.receive sort resourceState now } .updating)
  | finish : Goes sort m i g (.finish i) (m.put i g .done)
  | panic : g.phase.Sends = true → m.appStatusClosed = true →
      Goes sort m i g (.panic i) { m.put i g .done with panicked := true }

/-- What a step of the `run` loop, or a cancellation, leaves as it is: the loop does not come back
to its `select`, and leaves it only when it is cancelled. -/
structure Quiet (m m' : AppMonitor) : Prop where
  phases : m'.generations.map Informers.phase = m.generations.map Informers.phase
  delivered : m'.delivered = m.delivered
  panicked : m'.panicked = m.panicked
  selecting : m'.phase = .selecting → m.phase = .selecting ∧
    m'.appStatusClosed = m.appStatusClosed ∧ m'.informersClosed = m.informersClosed
  stopped : m.phase = .selecting ∨ m.cancelled = true →
    m'.phase = .selecting ∨ m'.cancelled = true

/-- **What a step can do.** -/
theorem step_cases {a : Action} (hstep : step sort m a = some m') :
    (∃ informers now, a = .apply informers now ∧ m.phase = .selecting ∧
      m' = m.apply sort informers now) ∨
    (Quiet m m' ∧ (a = .shutdown ∨ m'.cancelled = m.cancelled) ∧
      (a = .closeAppStatus ∨ m'.appStatusClosed = m.appStatusClosed)) ∨
    ∃ i g, m.generations[i]? = some g ∧ Goes sort m i g a m' := by
  cases a with
  | apply informers now =>
    simp only [step] at hstep
    split at hstep <;> cases hstep
    next hphase => exact .inl ⟨informers, now, rfl, hphase, rfl⟩
  | shutdown =>
    cases hstep
    have hquiet : Quiet m { m with
        cancelled := true
        generations := m.generations.map fun g => { g with cancelled := true } } :=
      ⟨List.map_map, rfl, rfl, fun h => ⟨h, rfl, rfl⟩, fun _ => .inr rfl⟩
    exact .inr (.inl ⟨hquiet, .inl rfl, .inr rfl⟩)
  | stop =>
    simp only [step] at hstep
    split at hstep <;> cases hstep
    next hcancelled =>
      rw [Bool.and_eq_true] at hcancelled
      exact .inr (.inl ⟨⟨rfl, rfl, rfl, (fun h => nomatch h), fun _ => .inr hcancelled.2⟩,
        .inr rfl, .inr rfl⟩)
  | closeAppStatus =>
    simp only [step] at hstep
    split at hstep <;> cases hstep
    next hphase =>
      have hstopped : m.phase ≠ .selecting := by rw [hphase]; decide
      exact .inr (.inl ⟨⟨rfl, rfl, rfl, (fun h => nomatch h),
        fun h => .inr (h.resolve_left hstopped)⟩, .inr rfl, .inl rfl⟩)
  | closeInformers =>
    simp only [step] at hstep
    split at hstep <;> cases hstep
    next hphase =>
      have hstopped : m.phase ≠ .selecting := by rw [hphase]; decide
      exact .inr (.inl ⟨⟨rfl, rfl, rfl, (fun h => nomatch h),
        fun h => .inr (h.resolve_left hstopped)⟩, .inr rfl, .inr rfl⟩)
  | deliver i =>
    obtain ⟨g, hg, hdeliver⟩ := Option.bind_eq_some_iff.mp hstep
    unfold deliver at hdeliver
    split at hdeliver <;> cases hdeliver
    next hsends =>
      rw [Bool.and_eq_true, Bool.not_eq_true'] at hsends
      exact .inr (.inr ⟨i, g, hg, .deliver hsends.1 hsends.2⟩)
  | event i resourceState now =>
    obtain ⟨g, hg, hevent⟩ := Option.bind_eq_some_iff.mp hstep
    unfold event at hevent
    split at hevent <;> cases hevent
    exact .inr (.inr ⟨i, g, hg, .event resourceState now⟩)
  | finish i =>
    obtain ⟨g, hg, hfinish⟩ := Option.bind_eq_some_iff.mp hstep
    unfold finish at hfinish
    split at hfinish <;> cases hfinish
    exact .inr (.inr ⟨i, g, hg, .finish⟩)
  | panic i =>
    obtain ⟨g, hg, hpanic⟩ := Option.bind_eq_some_iff.mp hstep
    unfold panic at hpanic
    split at hpanic <;> cases hpanic
    next hsends =>
      rw [Bool.and_eq_true] at hsends
      exact .inr (.inr ⟨i, g, hg, .panic hsends.1 hsends.2⟩)

/-- A goroutine that has something to send had it before, has just been started, or has just taken
a resource state. -/
theorem sends_step {a : Action} (hstep : step sort m a = some m') {j : Nat} {other : Informers}
    (h : m'.generations[j]? = some other) (hother : other.phase.Sends = true) :
    (∃ g, m.generations[j]? = some g ∧ g.phase.Sends = true) ∨
    (j = m.generations.length ∧ ∃ informers now, a = .apply informers now ∧ m.phase = .selecting) ∨
    ∃ resourceState now, a = .event j resourceState now := by
  rcases step_cases hstep with ⟨informers, now, rfl, hphase, rfl⟩ | ⟨hquiet, -⟩ | ⟨i, g, -, hgoes⟩
  · rcases getElem?_apply h with ⟨hj, -⟩ | ⟨g, hg, hsame⟩
    · exact .inr (.inl ⟨hj, informers, now, rfl, hphase⟩)
    · exact .inl ⟨g, hg, by rw [hsame, hother]⟩
  · have hphase := congrArg (·[j]?) hquiet.phases
    simp only [List.getElem?_map, h, Option.map_some] at hphase
    obtain ⟨g, hg, hsame⟩ := Option.map_eq_some_iff.mp hphase.symm
    exact .inl ⟨g, hg, by rw [hsame, hother]⟩
  · cases hgoes with
    | event resourceState now =>
      rcases Processes.getElem?_set_cases h with ⟨rfl, -⟩ | ⟨-, hold⟩
      · exact .inr (.inr ⟨resourceState, now, rfl⟩)
      · exact .inl ⟨other, hold, hother⟩
    | deliver | finish | panic =>
      rcases Processes.getElem?_set_cases h with ⟨-, rfl⟩ | ⟨-, hold⟩
      · cases hother
      · exact .inl ⟨other, hold, hother⟩

/-- Goroutines are only added. -/
theorem length_step {a : Action} (hstep : step sort m a = some m') :
    m.generations.length ≤ m'.generations.length := by
  rcases step_cases hstep with ⟨informers, now, -, -, rfl⟩ | ⟨hquiet, -⟩ | ⟨i, g, -, hgoes⟩
  · rw [apply, List.length_append, List.length_modify]
    omega
  · have hlength := congrArg List.length hquiet.phases
    rw [List.length_map, List.length_map] at hlength
    omega
  · have hlength : m'.generations.length = m.generations.length := by
      cases hgoes <;> exact List.length_set
    omega

theorem cancelled_step {a : Action} (hstep : step sort m a = some m') (ha : a ≠ .shutdown) :
    m'.cancelled = m.cancelled := by
  rcases step_cases hstep with ⟨informers, now, -, -, rfl⟩ | ⟨-, hcancelled, -⟩ | ⟨i, g, -, hgoes⟩
  · rfl
  · exact hcancelled.resolve_left ha
  · cases hgoes <;> rfl

/-! ## Earlier informers -/

structure Inv (m : AppMonitor) : Prop where
  clean : Clean m.delivered
  known : ∀ d ∈ m.delivered, d.generation < m.generations.length
  older : ∀ d ∈ m.delivered, d.reset = true → ∀ j g, j < d.generation →
    m.generations[j]? = some g → g.phase.Sends = false

theorem inv_init (targetNamespace appID : String) : Inv { targetNamespace, appID } where
  clean := .nil
  known _ h := by cases h
  older _ h := by cases h

theorem inv_step {a : Action} (hm : Inv m) (hguard : Guard m a)
    (hstep : (machine sort).step m a = some m') : Inv m' := by
  -- after an old reset, an earlier goroutine does not get to a send
  have holder : ∀ d ∈ m.delivered, d.reset = true → ∀ j g, j < d.generation →
      m'.generations[j]? = some g → g.phase.Sends = false := by
    intro d hd hreset j other hj hother
    by_contra hsends
    rw [Bool.not_eq_false] at hsends
    rcases sends_step hstep hother hsends with ⟨g, hg, hold⟩ | ⟨rfl, -⟩ | ⟨resourceState, now, rfl⟩
    · rw [hm.older d hd hreset j g hj hg] at hold
      cases hold
    · exact absurd (hm.known d hd) (by omega)
    · exact absurd (hguard d hd hreset) (by omega)
  have hlength := length_step hstep
  have hknown : ∀ d ∈ m.delivered, d.generation < m'.generations.length :=
    fun d hd => Nat.lt_of_lt_of_le (hm.known d hd) hlength
  have hsame : m'.delivered = m.delivered → Inv m' := fun hdelivered =>
    ⟨by rw [hdelivered]; exact hm.clean, by rw [hdelivered]; exact hknown,
      by rw [hdelivered]; exact holder⟩
  -- only a delivery adds to what was received
  rcases step_cases hstep with ⟨informers, now, rfl, -, rfl⟩ | ⟨hquiet, -⟩ | ⟨i, g, hg, hgoes⟩
  · exact hsame rfl
  · exact hsame hquiet.delivered
  · cases hgoes with
    | event | finish | panic => exact hsame rfl
    | deliver hsends hopen =>
      have hi : i < m.generations.length := (List.getElem?_eq_some_iff.mp hg).1
      refine ⟨List.pairwise_cons.mpr ⟨?_, hm.clean⟩, ?_, ?_⟩
      -- the sender is not older than any reset: an older one has nothing to send
      · intro d hd hreset
        by_contra hlt
        rw [hm.older d hd hreset i g (by dsimp only at hlt; omega) hg] at hsends
        cases hsends
      · intro d hd
        rcases List.mem_cons.mp hd with rfl | hd
        · exact Nat.lt_of_lt_of_le hi hlength
        · exact hknown d hd
      · intro d hd hreset j other hj hother
        rcases List.mem_cons.mp hd with rfl | hd
        · rcases Processes.getElem?_set_cases hother with ⟨heq, -⟩ | ⟨-, hold⟩
          · exact absurd heq (by dsimp only at hj; omega)
          -- a reset that is received now: the guard is about the goroutines before it
          · exact hguard g hg (by simpa using hreset) j other hj hold
        · exact holder d hd hreset j other hj hother

/-- **New informers replace old ones cleanly**, in every run in which a reset is received only when
the earlier goroutines have sent what they had to send, and these take nothing up afterwards. -/
theorem clean_everyState (sort : Reorder ResourceState) {m : AppMonitor}
    (hm : (machine sort).Reachable Init Guard m) : Clean m.delivered := by
  have hinv : (machine sort).EveryState Init Guard Inv := by
    refine Machine.everyState_of_inv ?_ fun _ _ _ => inv_step
    intro m hm
    rw [hm]
    exact inv_init _ _
  exact (hinv m hm).clean

end

def newMonitor : AppMonitor where
  targetNamespace := "default"
  appID := "app"

def deploymentInformer (name : String) : StatusInformer where
  kind := "deployment"
  name := name
  ns := ""

/-- The informers are replaced after a status of the old ones was received. -/
theorem clean_replaced : ∃ m, (machine (.id _)).Reachable Init Guard m ∧
    m.delivered.map (fun d => (d.generation, d.reset)) = [(1, true), (0, false), (0, true)] ∧
    Clean m.delivered := by
  let ready : ResourceState := ⟨"deployment", "web", "default", .ready⟩
  have hinit : (machine (.id _)).Reachable Init Guard newMonitor := .init rfl
  have hstarted := hinit.run [.apply [deploymentInformer "web"] 0] (by simp [Guard]) rfl
  have hreset := hstarted.step (a := Action.deliver 0) (fun _ _ _ j _ hj => by omega) rfl
  have hevent := hreset.step (a := Action.event 0 ready 1) (fun d hd _ => by
    cases List.mem_singleton.mp hd
    exact Nat.le_refl _) rfl
  have hupdated := hevent.step (a := Action.deliver 0) (fun _ _ _ j _ hj => by omega) rfl
  have hreplaced := hupdated.run [.apply [deploymentInformer "api"] 2] (by simp [Guard]) rfl
  have hclean := hreplaced.step (a := Action.deliver 1) (fun _ _ _ j earlier hj hearlier => by
    have hzero : j = 0 := by omega
    subst hzero
    cases hearlier
    rfl) rfl
  exact ⟨_, hclean, rfl, clean_everyState _ hclean⟩

/-- The reset of the second `Apply` is received before the one of the first, whose goroutine is
cancelled and still sends. -/
theorem not_clean_lateReset :
    ¬ ∃ sort, (machine sort).EveryState Init Machine.Free fun m => Clean m.delivered := by
  rintro ⟨sort, hclean⟩
  have hinit : Init newMonitor := rfl
  refine Machine.not_everyState (M := machine sort) hinit
    [.apply [deploymentInformer "web"] 0, .apply [deploymentInformer "api"] 1, .deliver 1,
      .deliver 0] rfl ?_ hclean
  intro hpairwise
  have hordered := (List.pairwise_cons.mp hpairwise).1 _ List.mem_cons_self rfl
  exact Nat.not_succ_le_zero 0 hordered

end AppMonitor

end Kotsadm.AppState
