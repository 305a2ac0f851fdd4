import Kotsadm.Operator.Requests

/-!
# ArrivalOrder — when the handlers of a connection run in the order of their messages

`Client.upTo` is the client after one handler has come to a phase, and nothing else has run.  In a
run that meets the guard the client is always what the handlers make of it one after the other.
-/

namespace Kotsadm.Requests

open AppState (StatusInformer)

/-! ## One handler alone -/

namespace Client

variable (c : Client) (args : DeployRequest)

/-- After the previous manifests. -/
def afterRemove : Client :=
  if args.previousManifests ≠ "" then { c with pruned := some args.previousManifests } else c

/-- After the manifests. -/
def afterApply : Client :=
  { c.afterRemove args with
    imagePullSecret := args.imagePullSecret
    watchedNamespaces := args.additionalNamespaces
    applied := some args.manifests }

/-- The informer of the channel is told to stop. -/
def stopInformer : Client :=
  match c.namespaceStopChan with
  | none => c
  | some channel => { c with namespaceInformers := c.namespaceInformers.erase (some channel) }

variable {c} in
theorem stopInformer_of_none (h : c.namespaceStopChan = none) : c.stopInformer = c := by
  unfold stopInformer
  rw [h]

variable {c} in
theorem stopInformer_of_some {channel : Nat} (h : c.namespaceStopChan = some channel) :
    c.stopInformer =
      { c with namespaceInformers := c.namespaceInformers.erase (some channel) } := by
  unfold stopInformer
  rw [h]

def makeChannel : Client :=
  { c with namespaceStopChan := some c.channels, channels := c.channels + 1 }

def startInformer : Client :=
  { c with namespaceInformers := c.namespaceInformers ++ [c.namespaceStopChan] }

/-- The client when the handler has come to the phase. -/
def upTo : DeployPhase → Client
  | .received => c
  | .removing | .ensuring _ | .reporting .removeFailed | .done .removeFailed => c.afterRemove args
  | .assigning => { c.afterRemove args with imagePullSecret := args.imagePullSecret }
  | .assigned => { c.afterRemove args with
      imagePullSecret := args.imagePullSecret
      watchedNamespaces := args.additionalNamespaces }
  | .applying | .stopping | .reporting .applyFailed | .done .applyFailed => c.afterApply args
  | .stopped => (c.afterApply args).stopInformer
  | .starting | .reporting .informerFailed | .done .informerFailed =>
    { (c.afterApply args).stopInformer with namespaceStopChan := none }
  | .running => { (c.afterApply args).stopInformer with namespaceStopChan := none }.makeChannel
  | .reporting .deployed | .done .deployed =>
    { (c.afterApply args).stopInformer with namespaceStopChan := none }.makeChannel.startInformer

end Client

section

variable {c c' : Client} {args : DeployRequest} {ok : Bool} {phase phase' : DeployPhase}

theorem isDone_next (h : phase.next args ok c = some (c', phase')) : phase.isDone = false := by
  cases phase with
  | done ending => cases h
  | _ => rfl

/-- **The step of one handler.**  There is one equation for each phase. -/
theorem upTo_next (h : phase.next args ok (c.upTo args phase) = some (c', phase')) :
    c' = c.upTo args phase' := by
  cases phase with
  | received =>
    unfold DeployPhase.next at h
    dsimp only [Client.upTo] at h
    split at h
    next hprevious =>
      cases h
      exact (if_pos hprevious).symm
    next hprevious =>
      cases h
      exact (if_neg hprevious).symm
  | removing => cases ok <;> cases h <;> rfl
  | ensuring rest =>
    cases rest with
    | nil => cases h; rfl
    | cons ns rest => cases h; rfl
  | assigning => cases h; rfl
  | assigned => cases h; rfl
  | applying => cases ok <;> cases h <;> rfl
  | stopping =>
    unfold DeployPhase.next at h
    cases hchan : (c.upTo args .stopping).namespaceStopChan with
    | none =>
      rw [hchan] at h
      cases h
      exact (Client.stopInformer_of_none hchan).symm
    | some channel =>
      have hstop := Client.stopInformer_of_some hchan
      rw [hchan] at h hstop
      -- without an informer on the channel the send waits
      by_cases hmem : some channel ∈ (c.upTo args .stopping).namespaceInformers
      · dsimp only at h
        rw [if_pos hmem] at h
        cases h
        exact hstop.symm
      · dsimp only at h
        rw [if_neg hmem] at h
        cases h
  | stopped => cases h; rfl
  | starting => cases ok <;> cases h <;> rfl
  | running => cases h; rfl
  | reporting ending => cases ending <;> cases h <;> rfl
  | done ending => cases h

end

/-! ## Runs of all of them -/

/-- The client after the handlers, each as far as it is, one after the other. -/
def serially (c : Client) (deploys : List DeployHandler) : Client :=
  deploys.foldl (fun c h => c.upTo h.args h.phase) c

/-- What a handler has asked for. -/
def InformHandler.request (h : InformHandler) (app : String) : Option (List StatusInformer) :=
  if h.isDone ∧ h.args.appID = app then h.args.parsed else none

/-- The informers of the last message for the app, of those that are handled and parse. -/
def requested (informs : List InformHandler) (app : String) : Option (List StatusInformer) :=
  informs.reverse.findSome? fun h => h.request app

theorem serially_concat (c : Client) (deploys : List DeployHandler) (h : DeployHandler) :
    serially c (deploys ++ [h]) = (serially c deploys).upTo h.args h.phase := by
  unfold serially
  rw [List.foldl_append]
  rfl

theorem requested_append_cons (before after : List InformHandler) (h : InformHandler)
    (app : String) :
    requested (before ++ h :: after) app =
      (requested after app).or ((h.request app).or (requested before app)) := by
  unfold requested
  rw [List.reverse_append, List.reverse_cons, List.append_assoc, List.findSome?_append,
    List.singleton_append, List.findSome?_cons]
  cases h.request app with
  | none => rfl
  | some informers => rfl

theorem requested_eq_none {informs : List InformHandler} {app : String}
    (h : ∀ g ∈ informs, g.args.appID ≠ app) : requested informs app = none := by
  unfold requested
  rw [List.findSome?_eq_none_iff]
  intro g hg
  exact if_neg fun hdone => h g (List.mem_reverse.mp hg) hdone.2

theorem request_unfinished {h : InformHandler} (hdone : h.isDone = false) (app : String) :
    h.request app = none := by
  unfold InformHandler.request
  rw [hdone]
  exact if_neg fun hand => absurd hand.1 Bool.false_ne_true

theorem request_otherApp {h : InformHandler} {app : String} (happ : h.args.appID ≠ app) :
    h.request app = none := if_neg fun hand => happ hand.2

structure Inv (s : Connection) : Prop where
  -- only the handler of the last message may be unfinished
  single : ∀ (i : Nat) (h : DeployHandler), s.deploys[i]? = some h → h.phase.isDone = false →
    i + 1 = s.deploys.length
  client : s.client = serially s.before s.deploys
  received : ∀ i ∈ s.trace, i < s.deploys.length
  sorted : s.trace.Pairwise (· ≤ ·)
  alone : ∀ (i j : Nat) (h g : InformHandler), i < j → s.informs[i]? = some h →
    s.informs[j]? = some g → h.args.appID = g.args.appID → h.isDone
  inForce : s.inForce = requested s.informs

theorem inv_init {s : Connection} (h : Init s) : Inv s := by
  obtain ⟨hclient, hforce, hdeploys, hinforms, htrace⟩ := h
  exact {
    single := by simp [hdeploys]
    client := by rw [hclient, hdeploys]; rfl
    received := by simp [htrace]
    sorted := by rw [htrace]; exact List.Pairwise.nil
    alone := by simp [hinforms]
    inForce := by rw [hforce, hinforms]; rfl }

theorem inv_receiveDeploy {s : Connection} {args : DeployRequest} (hs : Inv s)
    (hG : Guard s (.receiveDeploy args)) :
    Inv { s with deploys := s.deploys ++ [{ args }] } where
  single := by
    intro i h hi hphase
    rw [List.length_append]
    -- the handlers that were there are done by the guard
    rcases Nat.lt_or_ge i s.deploys.length with hlt | hge
    · rw [List.getElem?_append_left hlt] at hi
      rw [hG h (List.mem_of_getElem? hi)] at hphase
      cases hphase
    · have hlt := (List.getElem?_eq_some_iff.mp hi).1
      rw [List.length_append] at hlt
      simp only [List.length_cons, List.length_nil] at hlt ⊢
      omega
  client := by
    rw [serially_concat]
    exact hs.client
  received := by
    intro i hi
    have hlt := hs.received i hi
    rw [List.length_append]
    omega
  sorted := hs.sorted
  alone := hs.alone
  inForce := hs.inForce

theorem inv_receiveInform {s : Connection} {args : InformRequest} (hs : Inv s)
    (hG : Guard s (.receiveInform args)) :
    Inv { s with informs := s.informs ++ [{ args }] } where
  single := hs.single
  client := hs.client
  received := hs.received
  sorted := hs.sorted
  alone := by
    intro i j h g hij hi hj happ
    have hlt := (List.getElem?_eq_some_iff.mp hj).1
    rw [List.length_append, List.length_singleton] at hlt
    rw [List.getElem?_append_left (by omega)] at hi
    rcases Nat.lt_or_ge j s.informs.length with hold | hnew
    · rw [List.getElem?_append_left hold] at hj
      exact hs.alone i j h g hij hi hj happ
    · have hlast : j = s.informs.length := by omega
      rw [hlast, List.getElem?_concat_length] at hj
      cases hj
      exact hG h (List.mem_of_getElem? hi) happ
  inForce := by
    funext app
    rw [requested_append_cons, request_unfinished rfl]
    show s.inForce app = requested s.informs app
    rw [hs.inForce]

/-- A handler that is not done is that of the last message. -/
theorem deploys_eq_concat {s : Connection} {i : Nat} {h : DeployHandler} (hs : Inv s)
    (hi : s.deploys[i]? = some h) (hphase : h.phase.isDone = false) :
    ∃ earlier, s.deploys = earlier ++ [h] ∧ i = earlier.length := by
  have hlast := hs.single i h hi hphase
  have hlt : i < s.deploys.length := by omega
  refine ⟨s.deploys.take i, ?_, ?_⟩
  · rw [List.getElem?_eq_getElem hlt, Option.some.injEq] at hi
    rw [← hi, List.take_append_getElem hlt, hlast, List.take_length]
  · rw [List.length_take]
    omega

theorem inv_deploy {s : Connection} {i : Nat} {h : DeployHandler} {ok : Bool} {client : Client}
    {phase : DeployPhase} (hs : Inv s) (hi : s.deploys[i]? = some h)
    (hnext : h.phase.next h.args ok s.client = some (client, phase)) :
    Inv { s with
      client
      deploys := s.deploys.set i { h with phase }
      trace := s.trace ++ [i] } := by
  obtain ⟨earlier, hdeploys, hlength⟩ := deploys_eq_concat hs hi (isDone_next hnext)
  have hset : s.deploys.set i { h with phase } = earlier ++ [{ h with phase }] := by
    rw [hdeploys, hlength, List.set_append_right _ _ (Nat.le_refl _), Nat.sub_self]
    rfl
  -- the steps of the trace belong to handlers up to this one
  have hlast : s.deploys.length = i + 1 := by rw [hdeploys, hlength, List.length_append]; rfl
  have hclient := hs.client
  rw [hdeploys, serially_concat] at hclient
  -- so the handler steps from the client that the earlier ones have left
  rw [hclient] at hnext
  exact {
    single := by
      intro j g hj hphase
      rw [List.length_set]
      rcases Nat.lt_or_ge j i with hlt | hge
      · rw [List.getElem?_set_ne (by omega)] at hj
        exact hs.single j g hj hphase
      · have hlt := (List.getElem?_eq_some_iff.mp hj).1
        rw [List.length_set] at hlt
        omega
    client := by
      show client = serially s.before (s.deploys.set i { h with phase })
      rw [hset, serially_concat]
      exact upTo_next hnext
    received := by
      intro j hj
      rw [List.length_set]
      rcases List.mem_append.mp hj with hold | hnew
      · exact hs.received j hold
      · have heq := List.mem_singleton.mp hnew
        omega
    sorted := by
      -- nothing later than the last handler has run
      refine List.pairwise_append.mpr ⟨hs.sorted, List.pairwise_singleton _ _, ?_⟩
      intro j hj k hk
      have hlt := hs.received j hj
      have heq := List.mem_singleton.mp hk
      omega
    alone := hs.alone
    inForce := hs.inForce }

/-- The informers that are in force are those of the request, when the later ones are for other
apps. -/
theorem requested_handled {before after : List InformHandler} {h : InformHandler}
    (hdone : h.isDone = false) (hafter : ∀ g ∈ after, g.args.appID ≠ h.args.appID) :
    requested (before ++ { h with isDone := true } :: after) =
      match h.args.parsed with
      | none => requested (before ++ h :: after)
      | some informers =>
        Function.update (requested (before ++ h :: after)) h.args.appID (some informers) := by
  funext app
  rw [requested_append_cons]
  -- for its own app the handler is the last one that is done, for another one it counts for nothing
  by_cases happ : app = h.args.appID
  · subst happ
    have hrequest : InformHandler.request { h with isDone := true } h.args.appID = h.args.parsed :=
      if_pos ⟨rfl, rfl⟩
    rw [requested_eq_none hafter, hrequest]
    cases h.args.parsed with
    | none =>
      dsimp only
      rw [requested_append_cons, requested_eq_none hafter, request_unfinished hdone]
    | some informers =>
      dsimp only
      rw [Function.update_self]
      rfl
  · rw [request_otherApp (h := { h with isDone := true }) fun heq => happ heq.symm]
    have hsame : requested (before ++ h :: after) app =
        (requested after app).or (none.or (requested before app)) := by
      rw [requested_append_cons, request_unfinished hdone]
    cases h.args.parsed with
    | none => exact hsame.symm
    | some informers =>
      dsimp only
      rw [Function.update_of_ne happ, hsame]

theorem applyAppInformers_eq (s : Connection) (args : InformRequest) :
    applyAppInformers s args =
      { s with
        inForce := match args.parsed with
          | none => s.inForce
          | some informers => Function.update s.inForce args.appID (some informers) } := by
  unfold applyAppInformers
  cases args.parsed <;> rfl

/-- Handling a message leaves it what it is. -/
theorem of_getElem?_handled {informs : List InformHandler} {i j : Nat} {h g : InformHandler}
    (hi : informs[i]? = some h) (hj : (informs.set i { h with isDone := true })[j]? = some g) :
    ∃ g₀, informs[j]? = some g₀ ∧ g₀.args = g.args ∧ (g₀.isDone = true → g.isDone = true) := by
  by_cases heq : i = j
  · subst heq
    rw [List.getElem?_set_self (List.getElem?_eq_some_iff.mp hi).1] at hj
    cases hj
    exact ⟨h, hi, rfl, fun _ => rfl⟩
  · rw [List.getElem?_set_ne heq] at hj
    exact ⟨g, hj, rfl, id⟩

theorem inv_inform {s : Connection} {i : Nat} {h : InformHandler} (hs : Inv s)
    (hi : s.informs[i]? = some h) (hdone : h.isDone = false) :
    Inv { applyAppInformers s h.args with
      informs := s.informs.set i { h with isDone := true } } := by
  rw [applyAppInformers_eq]
  exact {
    single := hs.single
    client := hs.client
    received := hs.received
    sorted := hs.sorted
    alone := by
      intro j k g g' hjk hj hk happ
      obtain ⟨g₀, hj₀, hargs, hmono⟩ := of_getElem?_handled hi hj
      obtain ⟨g₀', hk₀, hargs', -⟩ := of_getElem?_handled hi hk
      rw [← hargs, ← hargs'] at happ
      exact hmono (hs.alone j k g₀ g₀' hjk hj₀ hk₀ happ)
    inForce := by
      obtain ⟨hlt, hget⟩ := List.getElem?_eq_some_iff.mp hi
      have hsplit : s.informs = s.informs.take i ++ h :: s.informs.drop (i + 1) := by
        rw [← hget, ← List.drop_eq_getElem_cons hlt, List.take_append_drop]
      have hafter : ∀ g ∈ s.informs.drop (i + 1), g.args.appID ≠ h.args.appID := by
        intro g hg happ
        obtain ⟨k, hk⟩ := List.mem_iff_getElem?.mp hg
        rw [List.getElem?_drop] at hk
        -- the handler of an earlier message for the app would be done
        have hearlier := hs.alone i (i + 1 + k) h g (by omega) hi hk happ.symm
        rw [hdone] at hearlier
        cases hearlier
      show _ = requested (s.informs.set i { h with isDone := true })
      rw [List.set_eq_take_append_cons_drop, if_pos hlt, requested_handled hdone hafter, ← hsplit,
        ← hs.inForce] }

/-- **The step.** -/
theorem inv_step {s s' : Connection} {a : Action} (hs : Inv s) (hG : Guard s a)
    (hstep : step s a = some s') : Inv s' := by
  cases a with
  | receiveDeploy args =>
    cases hstep
    exact inv_receiveDeploy hs hG
  | receiveInform args =>
    cases hstep
    exact inv_receiveInform hs hG
  | deploy i ok =>
    obtain ⟨h, hi, hrest⟩ := Option.bind_eq_some_iff.mp hstep
    obtain ⟨⟨client, phase⟩, hnext, hend⟩ := Option.bind_eq_some_iff.mp hrest
    cases hend
    exact inv_deploy hs hi hnext
  | inform i =>
    obtain ⟨h, hi, hrest⟩ := Option.bind_eq_some_iff.mp hstep
    split at hrest
    next => cases hrest
    next hdone =>
      cases hrest
      exact inv_inform hs hi (Bool.eq_false_iff.mpr hdone)

/-- The deploy handlers run one after the other in the order of their messages, and what is left is
that of the last message. -/
structure InOrder (s : Connection) : Prop where
  serial : s.trace.Pairwise (· ≤ ·)
  client : s.client = serially s.before s.deploys
  last : ∀ (earlier : List DeployHandler) (args : DeployRequest) (ending : Ending),
    s.deploys = earlier ++ [{ args, phase := .done ending }] →
      (args.previousManifests ≠ "" → s.client.pruned = some args.previousManifests) ∧
      (ending ≠ .removeFailed →
        s.client.applied = some args.manifests ∧
        s.client.imagePullSecret = args.imagePullSecret ∧
        s.client.watchedNamespaces = args.additionalNamespaces)
  inForce : ∀ app, s.inForce app = requested s.informs app

theorem Client.stopInformer_eq (c : Client) :
    ∃ informers, c.stopInformer = { c with namespaceInformers := informers } := by
  cases hchan : c.namespaceStopChan with
  | none => exact ⟨c.namespaceInformers, by rw [stopInformer_of_none hchan, ← hchan]⟩
  | some channel => exact ⟨_, by rw [stopInformer_of_some hchan, hchan]⟩

/-- What the handler of a deploy message leaves, whatever ran before it. -/
theorem upTo_done (c : Client) (args : DeployRequest) (ending : Ending) :
    (c.upTo args (.done ending)).pruned = (c.afterRemove args).pruned ∧
    (ending ≠ .removeFailed →
      (c.upTo args (.done ending)).applied = some args.manifests ∧
      (c.upTo args (.done ending)).imagePullSecret = args.imagePullSecret ∧
      (c.upTo args (.done ending)).watchedNamespaces = args.additionalNamespaces) := by
  -- the informer of the namespaces is stopped and started after all that
  obtain ⟨informers, hstop⟩ := (c.afterApply args).stopInformer_eq
  cases ending with
  | removeFailed => exact ⟨rfl, fun hne => absurd rfl hne⟩
  | applyFailed => exact ⟨rfl, fun _ => ⟨rfl, rfl, rfl⟩⟩
  | informerFailed =>
    unfold Client.upTo
    rw [hstop]
    exact ⟨rfl, fun _ => ⟨rfl, rfl, rfl⟩⟩
  | deployed =>
    unfold Client.upTo
    rw [hstop]
    exact ⟨rfl, fun _ => ⟨rfl, rfl, rfl⟩⟩

theorem Inv.inOrder {s : Connection} (hs : Inv s) : InOrder s where
  serial := hs.sorted
  client := hs.client
  last := by
    intro earlier args ending hdeploys
    have hclient := hs.client
    rw [hdeploys, serially_concat] at hclient
    obtain ⟨hpruned, hrest⟩ := upTo_done (serially s.before earlier) args ending
    rw [hclient, hpruned]
    -- without previous manifests nothing is pruned
    refine ⟨fun hprevious => ?_, hrest⟩
    show (Client.afterRemove _ args).pruned = some args.previousManifests
    unfold Client.afterRemove
    rw [if_pos hprevious]
  inForce := fun app => congrFun hs.inForce app

/-- When a deploy message arrives only after the handlers of the earlier ones are done, and an
`appInformers` message after those for its app, the requests are executed in their order. -/
theorem inOrder_everyState {s : Connection} (hs : machine.Reachable Init Guard s) :
    InOrder s := by
  have hinv : machine.EveryState Init Guard Inv :=
    Machine.everyState_of_inv (fun _ h => inv_init h) fun _ _ _ hs hG hstep => inv_step hs hG hstep
  exact (hinv s hs).inOrder

/-! ## Two messages, one after the other -/

def deployOf (manifests imagePullSecret : String) : DeployRequest where
  appID := "app"
  manifests
  additionalNamespaces := ["apps"]
  imagePullSecret

/-- All the steps of a handler. -/
def handled (i : Nat) : List Action := List.replicate 11 (.deploy i true)

/-- The second message arrives when the handler of the first one is done. -/
def oneByOne : List Action :=
  .receiveDeploy (deployOf "v1" "old") :: handled 0 ++
    .receiveDeploy (deployOf "v2" "new") :: handled 1

theorem run_oneByOne : (machine.guardedRun Guard { before := {}, client := {} } oneByOne).map
    (fun s => (s.client.applied, s.client.imagePullSecret)) = some (some "v2", "new") := by
  decide +kernel

theorem inOrder_oneByOne : ∃ s,
    machine.guardedRun Guard { before := {}, client := {} } oneByOne = some s ∧ InOrder s := by
  obtain ⟨s, hrun, _⟩ := Option.map_eq_some_iff.mp run_oneByOne
  have hinit : Init { before := {}, client := {} } := ⟨rfl, rfl, rfl, rfl, rfl⟩
  have hreached := (Machine.Reachable.init hinit).guardedRun oneByOne hrun
  exact ⟨s, hrun, inOrder_everyState hreached⟩

/-- The handler of the second message is done before that of the first one has begun: the first
manifests are applied last, and the client keeps their secret. -/
theorem not_inOrder_overtaken : ¬ machine.EveryState Init Machine.Free InOrder := by
  refine Machine.not_everyState (show Init { before := {}, client := {} } from
      ⟨rfl, rfl, rfl, rfl, rfl⟩)
    ([.receiveDeploy (deployOf "v1" "old"), .receiveDeploy (deployOf "v2" "new")] ++ handled 1 ++
      handled 0) rfl ?_
  intro hordered
  have hlast := hordered.last [{ args := deployOf "v1" "old", phase := .done .deployed }]
    (deployOf "v2" "new") .deployed rfl
  have happlied : some "v1" = some "v2" := (hlast.2 (by decide)).1
  exact absurd happlied (by decide)

end Kotsadm.Requests
