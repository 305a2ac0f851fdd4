import Kotsadm.Lib.Deferred
import Kotsadm.Lib.GoText
import Kotsadm.Lib.Machine

/-!
# AnonymousUploads — the TLS secret of the kURL proxy and the requests that replace it

A server of the proxy keeps the `acceptAnonymousUploads` of the secret it was built from.  A
request reads the secret again, and updates it from a goroutine when the request has ended.
-/

namespace Kotsadm.KurlProxy

/-! ## The secret -/

/-- The keys of the data that the proxy knows. -/
structure SecretData where
  tlsCrt : Option GoString := none
  tlsKey : Option GoString := none
  hostname : Option GoString := none
  acceptAnonymousUploads : Option GoString := none
  deriving DecidableEq, Repr

structure Secret where
  type : String
  -- `none` for a nil map
  data : Option SecretData := none
  -- the annotation
  acceptAnonymousUploads : Option GoString := none
  deriving DecidableEq, Repr

namespace Secret

variable (secret : Secret)

/-- The flag of an `Opaque` secret is a key of its data. -/
def flag : Option GoString :=
  if secret.type = "Opaque" then secret.data.bind (·.acceptAnonymousUploads)
  else secret.acceptAnonymousUploads

def Flagged : Bool := secret.flag.isSome

/-- `delete` of a key that is not there, or from a nil map, does nothing. -/
def deleteFlag : Secret :=
  if secret.type = "Opaque" then
    { secret with data := secret.data.map fun data => { data with acceptAnonymousUploads := none } }
  else { secret with acceptAnonymousUploads := none }

/-- The API server writes the string data over the data. -/
def mergeHostname (hostname : GoString) : Secret :=
  { secret with data := some { secret.data.getD {} with hostname := some hostname } }

/-- What an upload is about. -/
def certificate : Option GoString × Option GoString × Option GoString :=
  (secret.data.bind (·.tlsCrt), secret.data.bind (·.tlsKey), secret.data.bind (·.hostname))

end Secret

/-- What a request wants to store; `/tls/skip` stores a hostname only. -/
structure Upload where
  certs : Option (GoString × GoString)
  hostname : GoString
  deriving DecidableEq, Repr

namespace Upload

variable (upload : Upload)

/-- The certificate and the key; an assignment to a nil map panics. -/
def setCerts (secret : Secret) : Option Secret :=
  match upload.certs with
  | none => some secret
  | some (certData, keyData) =>
    secret.data.map fun data =>
      { secret with data := some { data with tlsCrt := some certData, tlsKey := some keyData } }

/-- The secret that an update with the edited object stores. -/
def apply (secret : Secret) : Option Secret :=
  (upload.setCerts secret).map fun secret => secret.deleteFlag.mergeHostname upload.hostname

/-- The secret has the certificate, the key and the hostname already. -/
def StoredIn (secret : Secret) : Prop :=
  ∃ data, secret.data = some data ∧ data.hostname = some upload.hostname ∧
    ∀ certData keyData, upload.certs = some (certData, keyData) →
      data.tlsCrt = some certData ∧ data.tlsKey = some keyData

end Upload

/-! ## The requests -/

/-- A request without a file, or without the field `hostname`, has `none` for it. -/
inductive Post where
  | tls (certs : Option (GoString × GoString)) (hostname : Option GoString)
  | skip (hostname : Option GoString)
  deriving DecidableEq, Repr

/-- A version of the secret, as the API server stores it. -/
structure Stored where
  secret : Secret
  resourceVersion : Nat := 0
  deriving DecidableEq, Repr

inductive Phase where
  | arrived
  -- before `secrets.Get`
  | get (upload : Upload)
  -- the goroutine waits for the end of the request
  | waiting (upload : Upload) (secret : Stored)
  | ended (upload : Upload) (secret : Stored)
  | done
  deriving DecidableEq, Repr

/-- A request, with the flag of the server that it arrived at. -/
structure Request where
  post : Post
  acceptAnonymousUploads : Bool
  phase : Phase := .arrived
  deriving DecidableEq, Repr

/-- The handlers up to `secrets.Get`; `valid` is what `validateCerts` says. -/
def Request.handle (r : Request) (valid : Bool) : Phase :=
  if r.acceptAnonymousUploads = false then .done
  else
    match r.post with
    | .skip (some hostname) => .get { certs := none, hostname }
    | .tls (some certs) (some hostname) => if valid then .get { certs, hostname } else .done
    | .skip none | .tls none _ | .tls (some _) none => .done

/-! ## The system -/

structure System where
  stored : Stored
  -- the versions before that, newest first
  older : List Secret := []
  -- the events of the watch
  events : List Secret := []
  -- the flag of the server
  server : Option Bool := none
  requests : List Request := []

inductive Action where
  | restart
  -- an event of the watch
  | event
  | post (post : Post)
  | handle (i : Nat) (valid : Bool)
  | get (i : Nat) (outcome : Except GoError Unit)
  | finish (i : Nat)
  | update (i : Nat) (outcome : Except GoError Unit)

namespace System

variable (s : System)

/-- The process starts anew; its watch begins with the secret as it is. -/
def restart : System := { s with events := [s.stored.secret], server := none, requests := [] }

/-- A secret whose certificate and key do not fit is ignored. -/
def event (keyPair : GoString → GoString → Bool) : Option System :=
  match s.events with
  | [] => none
  | secret :: events =>
    let certData := (secret.data.bind (·.tlsCrt)).getD []
    let keyData := (secret.data.bind (·.tlsKey)).getD []
    if keyPair certData keyData then
      some { s with events, server := some (secret.flag = some (GoString.ascii "1")) }
    else some { s with events }

def setPhase (i : Nat) (r : Request) (phase : Phase) : System :=
  { s with requests := s.requests.set i { r with phase } }

/-- The API server stores a new version, unless nothing has changed. -/
def store (secret : Secret) : System :=
  if secret = s.stored.secret then s
  else { s with
    stored := { secret, resourceVersion := s.stored.resourceVersion + 1 }
    older := s.stored.secret :: s.older
    events := s.events ++ [secret] }

/-- The update of a request; one with a stale resource version is rejected. -/
def update (i : Nat) (r : Request) (upload : Upload) (read : Stored)
    (outcome : Except GoError Unit) : System :=
  match upload.apply read.secret with
  | none => s.restart
  | some secret =>
    if outcome.isOk ∧ read.resourceVersion = s.stored.resourceVersion then
      (s.store secret).setPhase i r .done
    else s.setPhase i r .done

end System

def step (keyPair : GoString → GoString → Bool) (s : System) : Action → Option System
  | .restart => some s.restart
  | .event => s.event keyPair
  | .post post =>
    s.server.map fun acceptAnonymousUploads =>
      { s with requests := s.requests ++ [{ post, acceptAnonymousUploads }] }
  | .handle i valid =>
    s.requests[i]?.bind fun r =>
      match r.phase with
      | .arrived => some (s.setPhase i r (r.handle valid))
      | _ => none
  | .get i outcome =>
    s.requests[i]?.bind fun r =>
      match r.phase with
      | .get upload =>
        some (s.setPhase i r (if outcome.isOk then .waiting upload s.stored else .done))
      | _ => none
  | .finish i =>
    s.requests[i]?.bind fun r =>
      match r.phase with
      | .waiting upload read => some (s.setPhase i r (.ended upload read))
      | _ => none
  | .update i outcome =>
    s.requests[i]?.bind fun r =>
      match r.phase with
      | .ended upload read => some (s.update i r upload read outcome)
      | _ => none

def machine (keyPair : GoString → GoString → Bool) : Machine System Action := ⟨step keyPair⟩

/-- Any secret; the proxy has just started. -/
def Init (s : System) : Prop :=
  s.older = [] ∧ s.events = [s.stored.secret] ∧ s.server = none ∧ s.requests = []

/-- Every version of the secret, newest first. -/
def System.versions (s : System) : List Secret := s.stored.secret :: s.older

/-- After a version without the flag, certificate, key and hostname stay as they are. -/
def EndsForGood (s : System) : Prop :=
  s.versions.Pairwise fun later earlier =>
    earlier.Flagged = false → later.certificate = earlier.certificate

/-- A request reads the secret while it still has its flag, or has what the request stores. -/
def Guard (s : System) : Action → Prop
  | .get i (.ok _) =>
    ∀ r upload, s.requests[i]? = some r → r.phase = .get upload →
      s.stored.secret.Flagged = true ∨ upload.StoredIn s.stored.secret
  | _ => True

/-! ## An update -/

section

variable {upload : Upload} {secret secret' : Secret}

theorem flag_deleteFlag_mergeHostname (hostname : GoString) :
    (secret.deleteFlag.mergeHostname hostname).flag = none := by
  unfold Secret.flag Secret.deleteFlag Secret.mergeHostname
  by_cases htype : secret.type = "Opaque"
  · cases secret.data <;> simp [htype]
  · simp [htype]

/-- An update removes the flag. -/
theorem flagged_apply (h : upload.apply secret = some secret') : secret'.Flagged = false := by
  obtain ⟨edited, _, rfl⟩ := Option.map_eq_some_iff.mp h
  unfold Secret.Flagged
  rw [flag_deleteFlag_mergeHostname]
  rfl

theorem certificate_deleteFlag (secret : Secret) :
    secret.deleteFlag.certificate = secret.certificate := by
  unfold Secret.deleteFlag Secret.certificate
  split
  · cases secret.data <;> rfl
  · rfl

theorem certificate_mergeHostname (secret : Secret) (hostname : GoString) :
    (secret.mergeHostname hostname).certificate =
      (secret.certificate.1, secret.certificate.2.1, some hostname) := by
  unfold Secret.mergeHostname Secret.certificate
  cases secret.data <;> rfl

/-- What an update stores. -/
theorem certificate_apply (h : upload.apply secret = some secret') :
    secret'.certificate =
      match upload.certs with
      | none => (secret.certificate.1, secret.certificate.2.1, some upload.hostname)
      | some (certData, keyData) => (some certData, some keyData, some upload.hostname) := by
  obtain ⟨edited, hedited, rfl⟩ := Option.map_eq_some_iff.mp h
  rw [certificate_mergeHostname, certificate_deleteFlag]
  unfold Upload.setCerts at hedited
  cases hcerts : upload.certs with
  | none =>
    rw [hcerts] at hedited
    cases hedited
    rfl
  | some certs =>
    rw [hcerts] at hedited
    obtain ⟨data, _, rfl⟩ := Option.map_eq_some_iff.mp hedited
    rfl

/-- An update changes the certificate, the key or the hostname unless it stores what is there. -/
theorem certificate_apply_eq_iff (h : upload.apply secret = some secret') :
    secret'.certificate = secret.certificate ↔ upload.StoredIn secret := by
  rw [certificate_apply h]
  unfold Upload.StoredIn Secret.certificate
  cases hcerts : upload.certs with
  | none =>
    cases hdata : secret.data with
    | none => simp
    | some data => simp [eq_comm]
  | some certs =>
    cases hdata : secret.data with
    | none => simp
    | some data =>
      simp only [Option.bind_some, Prod.mk.injEq, Option.some.injEq, exists_eq_left', eq_comm]
      constructor
      · rintro ⟨hcrt, hkey, hhostname⟩
        refine ⟨hhostname, ?_⟩
        rintro certData keyData rfl
        exact ⟨hcrt, hkey⟩
      · rintro ⟨hhostname, hall⟩
        exact ⟨(hall certs.1 certs.2 rfl).1, (hall certs.1 certs.2 rfl).2, hhostname⟩

end

/-! ## The invariant -/

/-- The request has read the secret and not updated it yet. -/
def Request.Holds (r : Request) (upload : Upload) (read : Stored) : Prop :=
  r.phase = .waiting upload read ∨ r.phase = .ended upload read

/-- What is held is the stored version or an older one, and was not read too late. -/
structure Pending (stored : Stored) (upload : Upload) (read : Stored) : Prop where
  version : read.resourceVersion ≤ stored.resourceVersion
  same : read.resourceVersion = stored.resourceVersion → read = stored
  kept : read.secret.Flagged = true ∨ upload.StoredIn read.secret

/-- The versions without the flag agree, and no later one has it. -/
def Frozen (versions : List Secret) : Prop :=
  versions.Pairwise fun later earlier =>
    earlier.Flagged = false → later.Flagged = false ∧ later.certificate = earlier.certificate

structure Inv (s : System) : Prop where
  frozen : Frozen s.versions
  pending : ∀ r ∈ s.requests, ∀ upload read, r.Holds upload read → Pending s.stored upload read

section

variable {keyPair : GoString → GoString → Bool} {s s' : System} {i : Nat} {r : Request}
  {upload : Upload} {read : Stored} {secret : Secret}

theorem inv_init (hs : Init s) : Inv s where
  frozen := by
    unfold Frozen System.versions
    rw [hs.1]
    exact List.pairwise_singleton _ _
  pending := by
    rw [hs.2.2.2]
    exact fun r hr => nomatch hr

/-- The new phase may hold a version, if it is pending. -/
theorem Inv.setPhase (h : Inv s) {phase : Phase}
    (hphase : ∀ upload read, Request.Holds { r with phase } upload read →
      Pending s.stored upload read) :
    Inv (s.setPhase i r phase) where
  frozen := h.frozen
  pending := by
    intro q hq
    rcases List.mem_or_eq_of_mem_set hq with hq | rfl
    · exact h.pending q hq
    · exact hphase

theorem Inv.setDone (h : Inv s) : Inv (s.setPhase i r .done) :=
  h.setPhase fun upload read hholds => by rcases hholds with hholds | hholds <;> cases hholds

theorem Pending.store (h : Pending s.stored upload read) :
    Pending (s.store secret).stored upload read := by
  unfold System.store
  split
  · exact h
  · refine ⟨Nat.le_succ_of_le h.version, fun hversion => ?_, h.kept⟩
    -- a version that was read is older than one that is stored now
    have hle := h.version
    rw [hversion] at hle
    exact absurd hle (Nat.not_succ_le_self _)

/-- A new version has no flag, and changes nothing when the stored one has none. -/
theorem Inv.store (h : Inv s) (hflagged : secret.Flagged = false)
    (hsame : s.stored.secret.Flagged = false → secret.certificate = s.stored.secret.certificate) :
    Inv (s.store secret) where
  frozen := by
    unfold System.store
    split
    · exact h.frozen
    · refine List.pairwise_cons.mpr ⟨fun earlier hearlier hnone => ⟨hflagged, ?_⟩, h.frozen⟩
      rcases List.mem_cons.mp hearlier with rfl | hold
      · exact hsame hnone
      · obtain ⟨hstored, hcertificate⟩ := (List.pairwise_cons.mp h.frozen).1 earlier hold hnone
        exact (hsame hstored).trans hcertificate
  pending := by
    have hrequests : (s.store secret).requests = s.requests := by
      unfold System.store
      split <;> rfl
    rw [hrequests]
    exact fun r hr upload read hholds => (h.pending r hr upload read hholds).store

theorem Inv.restart (h : Inv s) : Inv s.restart where
  frozen := h.frozen
  pending := fun r hr => nomatch hr

/-- An update that goes through was read from the stored version. -/
theorem Inv.update (h : Inv s) (hr : s.requests[i]? = some r) (hphase : r.phase = .ended upload read)
    (outcome : Except GoError Unit) : Inv (s.update i r upload read outcome) := by
  have hpending := h.pending r (List.mem_of_getElem? hr) upload read (.inr hphase)
  unfold System.update
  split
  next => exact h.restart
  next secret hsecret =>
    split
    next hgoes =>
      have hread : read = s.stored := hpending.same hgoes.2
      have hkept := hpending.kept
      rw [hread] at hsecret hkept
      refine Inv.setDone (h.store (flagged_apply hsecret) fun hnone => ?_)
      have hstored : upload.StoredIn s.stored.secret := by
        refine hkept.resolve_left fun hflagged => ?_
        rw [hnone] at hflagged
        cases hflagged
      exact (certificate_apply_eq_iff hsecret).mpr hstored
    next => exact h.setDone

theorem inv_event (h : Inv s) (hevent : s.event keyPair = some s') : Inv s' := by
  unfold System.event at hevent
  split at hevent
  next => cases hevent
  next =>
    dsimp only at hevent
    split at hevent <;> cases hevent
    all_goals exact ⟨h.frozen, h.pending⟩

theorem inv_step {a : Action} (h : Inv s) (hguard : Guard s a)
    (hstep : (machine keyPair).step s a = some s') : Inv s' := by
  change step keyPair s a = some s' at hstep
  cases a with
  | restart =>
    cases hstep
    exact h.restart
  | event => exact inv_event h hstep
  | post post =>
    obtain ⟨flag, _, rfl⟩ := Option.map_eq_some_iff.mp hstep
    refine ⟨h.frozen, fun q hq upload read hholds => ?_⟩
    rcases List.mem_append.mp hq with hq | hq
    · exact h.pending q hq upload read hholds
    · rw [List.mem_singleton.mp hq] at hholds
      rcases hholds with hholds | hholds <;> cases hholds
  | handle i valid =>
    obtain ⟨r, hr, hhandle⟩ := Option.bind_eq_some_iff.mp hstep
    split at hhandle <;> cases hhandle
    refine h.setPhase fun upload read hholds => ?_
    -- nothing is read before `secrets.Get`
    unfold Request.Holds Request.handle at hholds
    rcases hholds with hholds | hholds
    all_goals
      dsimp only at hholds
      repeat' split at hholds
      all_goals cases hholds
  | get i outcome =>
    obtain ⟨r, hr, hget⟩ := Option.bind_eq_some_iff.mp hstep
    split at hget <;> cases hget
    next upload hphase =>
      cases outcome with
      | error e => exact h.setDone
      | ok _ =>
        have hkept := hguard r upload hr hphase
        refine h.setPhase fun upload' read hholds => ?_
        rcases hholds with hholds | hholds
        · cases hholds
          exact ⟨Nat.le_refl _, fun _ => rfl, hkept⟩
        · cases hholds
  | finish i =>
    obtain ⟨r, hr, hfinish⟩ := Option.bind_eq_some_iff.mp hstep
    split at hfinish <;> cases hfinish
    next upload read hphase =>
      have hpending := h.pending r (List.mem_of_getElem? hr) upload read (.inl hphase)
      refine h.setPhase fun upload' read' hholds => ?_
      rcases hholds with hholds | hholds
      · cases hholds
      · cases hholds
        exact hpending
  | update i outcome =>
    obtain ⟨r, hr, hupdate⟩ := Option.bind_eq_some_iff.mp hstep
    split at hupdate <;> cases hupdate
    next upload read hphase => exact h.update hr hphase outcome

/-- **Anonymous uploads end for good**, in every run whose requests read the secret while it has
its flag. -/
theorem endsForGood_everyState (keyPair : GoString → GoString → Bool) :
    (machine keyPair).EveryState Init Guard EndsForGood := by
  intro s hs
  have hinv : (machine keyPair).EveryState Init Guard Inv :=
    Machine.everyState_of_inv (fun _ h => inv_init h) fun _ _ _ => inv_step
  exact (hinv s hs).frozen.imp fun hfrozen hnone => (hfrozen hnone).2

/-! ## A late read -/

theorem getElem?_setPhase (hr : s.requests[i]? = some r) (phase : Phase) :
    (s.setPhase i r phase).requests[i]? = some { r with phase } :=
  List.getElem?_set_self (List.getElem?_eq_some_iff.mp hr).1

theorem versions_store (s : System) (secret : Secret) :
    (s.store secret).versions =
      if secret = s.stored.secret then s.versions else secret :: s.versions := by
  unfold System.store
  split <;> rfl

/-- A secret with a data map takes every upload. -/
theorem exists_apply (upload : Upload) (hdata : secret.data ≠ none) :
    ∃ secret', upload.apply secret = some secret' := by
  obtain ⟨data, hdata⟩ := Option.ne_none_iff_exists'.mp hdata
  unfold Upload.apply Upload.setCerts
  cases upload.certs with
  | none => exact ⟨_, rfl⟩
  | some certs =>
    rw [hdata]
    exact ⟨_, rfl⟩

/-- A request that has read the stored version updates it. -/
theorem run_waiting {secret' : Secret} (hr : s.requests[i]? = some r)
    (hphase : r.phase = .waiting upload s.stored)
    (happly : upload.apply s.stored.secret = some secret') :
    ∃ s', (machine keyPair).run s [.finish i, .update i (.ok ())] = some s' ∧
      s'.versions = (s.store secret').versions := by
  let s₁ := s.setPhase i r (.ended upload s.stored)
  have hfinish : step keyPair s (.finish i) = some s₁ := by
    show s.requests[i]?.bind _ = _
    rw [hr, Option.bind_some, hphase]
  have hr₁ : s₁.requests[i]? = some { r with phase := .ended upload s.stored } :=
    getElem?_setPhase hr _
  have hupdate : step keyPair s₁ (.update i (.ok ())) =
      some ((s₁.store secret').setPhase i { r with phase := .ended upload s.stored } .done) := by
    show s₁.requests[i]?.bind _ = _
    rw [hr₁, Option.bind_some]
    show some (s₁.update i _ upload s.stored (.ok ())) = _
    unfold System.update
    rw [happly]
    exact congrArg some (if_pos ⟨rfl, rfl⟩)
  refine ⟨(s₁.store secret').setPhase i { r with phase := .ended upload s.stored } .done, ?_, ?_⟩
  · show (step keyPair s (.finish i)).bind _ = _
    rw [hfinish]
    show (step keyPair s₁ (.update i (.ok ()))).bind some = _
    rw [hupdate]
    rfl
  · show (s₁.store secret').versions = _
    rw [versions_store, versions_store]
    rfl

/-- The condition is exact: a request that reads the secret too late can still change it. -/
theorem exists_changed (hdata : s.stored.secret.data ≠ none)
    (hstep : (machine keyPair).step s (.get i (.ok ())) = some s')
    (hguard : ¬ Guard s (.get i (.ok ()))) :
    ∃ actions s'', (machine keyPair).run s' actions = some s'' ∧ ¬ EndsForGood s'' := by
  simp only [Guard, not_forall, not_or] at hguard
  obtain ⟨r, upload, hr, hphase, hflagged, hstored⟩ := hguard
  have hget : (machine keyPair).step s (.get i (.ok ())) =
      some (s.setPhase i r (.waiting upload s.stored)) := by
    show s.requests[i]?.bind _ = _
    rw [hr, Option.bind_some, hphase]
    rfl
  obtain rfl : s.setPhase i r (.waiting upload s.stored) = s' :=
    Option.some.inj (hget.symm.trans hstep)
  obtain ⟨secret', happly⟩ := exists_apply upload hdata
  have hchanged : secret'.certificate ≠ s.stored.secret.certificate :=
    fun hsame => hstored ((certificate_apply_eq_iff happly).mp hsame)
  have hphase := getElem?_setPhase hr (.waiting upload s.stored)
  have hend : ∃ s'', (machine keyPair).run (s.setPhase i r (.waiting upload s.stored))
      [.finish i, .update i (.ok ())] = some s'' ∧ s''.versions = _ :=
    run_waiting hphase rfl happly
  obtain ⟨s'', hrun, hversions⟩ := hend
  refine ⟨_, s'', hrun, fun hends => hchanged ?_⟩
  unfold EndsForGood at hends
  have hne : secret' ≠ s.stored.secret := fun heq => hchanged (congrArg Secret.certificate heq)
  rw [hversions, versions_store] at hends
  rw [if_neg (show ¬ secret' = (s.setPhase i r (.waiting upload s.stored)).stored.secret from hne)]
    at hends
  exact (List.pairwise_cons.mp hends).1 s.stored.secret List.mem_cons_self
    (by simpa using hflagged)

end

/-- Two requests arrive at a server that accepts uploads; the second one reads the secret when the
first one has updated it. -/
theorem not_endsForGood_lateRead :
    ¬ (machine fun certData keyData => certData ≠ [] && keyData ≠ []).EveryState Init
      Machine.Free EndsForGood := by
  let secret : Secret :=
    { type := "kubernetes.io/tls"
      data := some { tlsCrt := some (GoString.ascii "self"), tlsKey := some (GoString.ascii "key") }
      acceptAnonymousUploads := some (GoString.ascii "1") }
  let own : Post := .tls (some (GoString.ascii "own", GoString.ascii "key 1")) (some [])
  let other : Post := .tls (some (GoString.ascii "other", GoString.ascii "key 2")) (some [])
  have hinit : Init { stored := { secret }, events := [secret] } := ⟨rfl, rfl, rfl, rfl⟩
  refine Machine.not_everyState hinit
    [.event, .post own, .post other, .handle 0 true, .handle 1 true, .get 0 (.ok ()), .finish 0,
      .update 0 (.ok ()), .get 1 (.ok ()), .finish 1, .update 1 (.ok ())] rfl ?_
  intro hends
  have hsame := (List.pairwise_cons.mp hends).1 _ List.mem_cons_self rfl
  exact absurd hsame (by decide)

end Kotsadm.KurlProxy
