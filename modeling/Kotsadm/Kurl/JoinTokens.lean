import Kotsadm.Kurl.NodeJoin
import Kotsadm.Lib.Processes

/-!
# JoinTokens — what a join command is good for

The token and the certificates go through the same stages of a request.  What the config map records
of them never gets earlier, and whatever is handed out was found, or made, to outlast the period.
-/

namespace Kotsadm.Kurl.NodeJoin

/-! ## Credentials -/

namespace Credential

/-- It outlasts the period after the check. -/
def Fresh (checkedAt : Nat) (c : Credential) : Prop :=
  ∃ t, c.expiry = some t ∧ checkedAt + configExpirationRegeneratePeriod ≤ t

/-- It expires no earlier than recorded. -/
def Issued (issued : List (String × Nat)) (c : Credential) : Prop :=
  ∀ t, c.expiry = some t → ∃ secret e, c.secret = some secret ∧ (secret, e) ∈ issued ∧ t ≤ e

def Within (bound : Nat) (c : Credential) : Prop := ∀ t, c.expiry = some t → t ≤ bound

structure Sound (issued : List (String × Nat)) (bound : Nat) (c : Credential) : Prop where
  issued : c.Issued issued
  within : c.Within bound

/-- `c'` is recorded to expire no earlier. -/
def Later (c c' : Credential) : Prop := ∀ t, c.expiry = some t → ∃ t', c'.expiry = some t' ∧ t ≤ t'

variable {c c' c'' : Credential} {issued issued' : List (String × Nat)} {bound bound' checkedAt : Nat}

theorem Later.refl (c : Credential) : c.Later c := fun t ht => ⟨t, ht, Nat.le_refl t⟩

theorem Later.trans (h : c.Later c') (h' : c'.Later c'') : c.Later c'' := by
  intro t ht
  obtain ⟨t', ht', hle⟩ := h t ht
  obtain ⟨t'', ht'', hle'⟩ := h' t' ht'
  exact ⟨t'', ht'', Nat.le_trans hle hle'⟩

theorem Fresh.later (h : c.Fresh checkedAt) (hlater : c.Later c') : c'.Fresh checkedAt := by
  obtain ⟨t, ht, hle⟩ := h
  obtain ⟨t', ht', hle'⟩ := hlater t ht
  exact ⟨t', ht', Nat.le_trans hle hle'⟩

theorem Sound.mono (h : c.Sound issued bound) (hissued : issued ⊆ issued') (hbound : bound ≤ bound') :
    c.Sound issued' bound' where
  issued := by
    intro t ht
    obtain ⟨secret, e, hsecret, hmem, hle⟩ := h.issued t ht
    exact ⟨secret, e, hsecret, hissued hmem, hle⟩
  within := fun t ht => Nat.le_trans (h.within t ht) hbound

theorem fresh_of_not_expires {now : Nat} (h : c.expires now = false) : c.Fresh now := by
  unfold expires at h
  unfold Fresh expiry
  cases hexpiration : c.expiration with
  | none =>
    rw [hexpiration] at h
    cases h
  | some value =>
    rw [hexpiration] at h
    dsimp only at h
    cases hparse : value.parse with
    | none =>
      rw [hparse] at h
      cases h
    | some t =>
      rw [hparse] at h
      dsimp only at h
      refine ⟨t, hparse, ?_⟩
      simpa using h

/-- Recorded times are whole seconds. -/
theorem expiry_floor {t bound : Nat} (h : c.expiry = some t) (hle : t ≤ bound) :
    t ≤ bound / second * second := by
  unfold expiry at h
  obtain ⟨value, -, hparse⟩ := Option.bind_eq_some_iff.mp h
  cases value with
  | unparsable => cases hparse
  | «at» seconds =>
    cases hparse
    have hseconds : seconds ≤ bound / second := (Nat.le_div_iff_mul_le (by decide)).mpr hle
    exact Nat.mul_le_mul_right second hseconds

theorem expiry_record (secret : String) (expiration : Nat) :
    (record secret expiration).expiry = some (expiration / second * second) := rfl

/-- A new credential lasts longer than the period. -/
theorem fresh_record {secret : String} {expiration duration : Nat}
    (hduration : configExpirationRegeneratePeriod + second ≤ duration)
    (h : checkedAt + duration ≤ expiration) : (record secret expiration).Fresh checkedAt := by
  refine ⟨_, expiry_record secret expiration, ?_⟩
  have hdiv := Nat.div_add_mod expiration second
  have hmod := Nat.mod_lt expiration (show 0 < second by decide)
  rw [Nat.mul_comm second] at hdiv
  omega

end Credential

/-! ## Stages -/

/-- How far a request is with one of the two. -/
inductive Stage
  | none
  /-- read, before the check -/
  | read (c : Credential)
  | checked (renew : Bool)
  | copied (c : Credential) (version : Nat) (renew : Bool)
  | stamped (c : Credential) (version expiration : Nat)
  | done (c : Credential) (version : Nat)
  | stored (c : Credential)

/-- What the request relies on, when the config map has `config` in its version `version`. -/
def Stage.Holds (config : Credential) (version : Nat) (issued : List (String × Nat))
    (duration now : Nat) (needed : Prop) (checkedAt : Nat) : Stage → Prop
  | .none => True
  | .read c => c.Later config
  | .checked renew => checkedAt ≤ now ∧ (needed → renew = false → config.Fresh checkedAt)
  | .copied c v renew => checkedAt ≤ now ∧ v ≤ version ∧ (v = version → c = config) ∧
      c.Sound issued (now + duration) ∧ (needed → renew = false → c.Fresh checkedAt)
  | .stamped _ v expiration => v ≤ version ∧ (v = version → config.Within expiration) ∧
      checkedAt + duration ≤ expiration ∧ expiration ≤ now + duration
  | .done c v => v ≤ version ∧ (v = version → config.Later c) ∧
      c.Sound issued (now + duration) ∧ (needed → c.Fresh checkedAt)
  | .stored c => c.Sound issued (now + duration) ∧ (needed → c.Fresh checkedAt)

section

open Credential

variable {config config' c : Credential} {version version' v : Nat}
  {issued issued' : List (String × Nat)} {duration now now' : Nat} {needed : Prop}
  {checkedAt : Nat}

/-- Time, other requests and new versions of the config map do not matter. -/
theorem Stage.Holds.mono {stage : Stage}
    (h : stage.Holds config version issued duration now needed checkedAt)
    (hlater : config.Later config') (hversion : version ≤ version')
    (hsame : version = version' → config' = config) (hissued : issued ⊆ issued')
    (hnow : now ≤ now') : stage.Holds config' version' issued' duration now' needed checkedAt := by
  have hold : ∀ {v : Nat}, v ≤ version → v = version' → version = version' :=
    fun hle heq => by omega
  have hbound : now + duration ≤ now' + duration := Nat.add_le_add_right hnow _
  cases stage with
  | none => trivial
  | read c => exact Later.trans h hlater
  | checked renew =>
    obtain ⟨hchecked, hfresh⟩ := h
    exact ⟨Nat.le_trans hchecked hnow, fun hneeded hrenew => (hfresh hneeded hrenew).later hlater⟩
  | copied c v renew =>
    obtain ⟨hchecked, hle, heq, hsound, hfresh⟩ := h
    refine ⟨Nat.le_trans hchecked hnow, Nat.le_trans hle hversion, fun hv => ?_,
      hsound.mono hissued hbound, hfresh⟩
    have hversions := hold hle hv
    rw [hsame hversions]
    exact heq (hv.trans hversions.symm)
  | stamped c v expiration =>
    obtain ⟨hle, hwithin, hafter, hbefore⟩ := h
    refine ⟨Nat.le_trans hle hversion, fun hv => ?_, hafter, Nat.le_trans hbefore hbound⟩
    have hversions := hold hle hv
    rw [hsame hversions]
    exact hwithin (hv.trans hversions.symm)
  | done c v =>
    obtain ⟨hle, hlater', hsound, hfresh⟩ := h
    refine ⟨Nat.le_trans hle hversion, fun hv => ?_, hsound.mono hissued hbound, hfresh⟩
    have hversions := hold hle hv
    rw [hsame hversions]
    exact hlater' (hv.trans hversions.symm)
  | stored c =>
    obtain ⟨hsound, hfresh⟩ := h
    exact ⟨hsound.mono hissued hbound, hfresh⟩

/-! The steps of a request from one stage to the next. -/

theorem Stage.check {checkedAt' : Nat} {renew : Bool}
    (h : (Stage.read c).Holds config version issued duration now needed checkedAt')
    (hrenew : needed → renew = false → c.expires now = false) :
    (Stage.checked renew).Holds config version issued duration now needed now :=
  ⟨Nat.le_refl now, fun hneeded hkept =>
    (fresh_of_not_expires (hrenew hneeded hkept)).later h⟩

theorem Stage.copy {renew renew' : Bool}
    (h : (Stage.checked renew).Holds config version issued duration now needed checkedAt)
    (hconfig : config.Sound issued (now + duration)) (hrenew : renew' = false → renew = false) :
    (Stage.copied config version renew').Holds config version issued duration now needed
      checkedAt :=
  ⟨h.1, Nat.le_refl version, fun _ => rfl, hconfig, fun hneeded hkept => h.2 hneeded (hrenew hkept)⟩

theorem Stage.stamp {renew : Bool}
    (h : (Stage.copied c v renew).Holds config version issued duration now needed checkedAt)
    (hconfig : config.Sound issued (now + duration)) :
    (Stage.stamped c v (now + duration)).Holds config version issued duration now needed
      checkedAt :=
  ⟨h.2.1, fun _ => hconfig.within, Nat.add_le_add_right h.1 _, Nat.le_refl _⟩

theorem Stage.keep
    (h : (Stage.copied c v false).Holds config version issued duration now needed checkedAt) :
    (Stage.done c v).Holds config version issued duration now needed checkedAt := by
  obtain ⟨-, hle, heq, hsound, hfresh⟩ := h
  refine ⟨hle, fun hv => ?_, hsound, fun hneeded => hfresh hneeded rfl⟩
  rw [heq hv]
  exact Later.refl _

/-- What is made expires no earlier than what was computed before it. -/
theorem Stage.renew {expiration : Nat} {secret : String}
    (hduration : configExpirationRegeneratePeriod + second ≤ duration)
    (h : (Stage.stamped c v expiration).Holds config version issued duration now needed checkedAt) :
    (Stage.done (.record secret expiration) v).Holds config version
      (issued ++ [(secret, (now + duration) / second * second)]) duration now needed checkedAt := by
  obtain ⟨hle, hwithin, hafter, hbefore⟩ := h
  have hfloor : expiration / second * second ≤ (now + duration) / second * second :=
    Nat.mul_le_mul_right _ (Nat.div_le_div_right hbefore)
  refine ⟨hle, fun hv t ht => ⟨_, expiry_record _ _, expiry_floor ht (hwithin hv t ht)⟩, ⟨?_, ?_⟩,
    fun _ => fresh_record hduration hafter⟩
  · intro t ht
    rw [expiry_record] at ht
    cases ht
    exact ⟨secret, _, rfl, List.mem_append_right _ List.mem_cons_self, hfloor⟩
  · intro t ht
    rw [expiry_record] at ht
    cases ht
    exact Nat.le_trans hfloor (Nat.div_mul_le_self _ _)

end

/-! ## Requests -/

def Phase.token : Phase → Stage
  | .started => .none
  | .read data => .read data.token
  | .tokenChecked _ regenerate | .checked regenerate _ => .checked regenerate
  | .got data version generate _ => .copied data.token version generate
  | .stamped data version expiration _ => .stamped data.token version expiration
  | .tokenDone data version _ | .certsStamped data version _ | .certsDone data version =>
    .done data.token version
  | .updated data | .returned data _ _ => .stored data.token
  | .unparsed | .failed => .none

def Phase.certs : Phase → Stage
  | .started => .none
  | .read data | .tokenChecked data _ => .read data.certs
  | .checked _ upload => .checked upload
  | .got data version _ upload | .stamped data version _ upload | .tokenDone data version upload =>
    .copied data.certs version upload
  | .certsStamped data version expiration => .stamped data.certs version expiration
  | .certsDone data version => .done data.certs version
  | .updated data | .returned data _ _ => .stored data.certs
  | .unparsed | .failed => .none

/-- Only a master needs the certificates. -/
structure RequestHolds (s : State) (r : Request) : Prop where
  token : r.phase.token.Holds s.config.token s.version s.tokens bootstrapTokenDuration s.now True
    r.tokenCheckedAt
  certs : r.phase.certs.Holds s.config.certs s.version s.uploads certsDuration s.now
    (r.master = true) r.certsCheckedAt
  parsed : r.phase ≠ .unparsed
  returned : ∀ data command expiry, r.phase = .returned data command expiry →
    command = joinCommand data r.gitVersion r.master ∧ data.token.expiry = some expiry

structure ConfigHolds (s : State) : Prop where
  token : s.config.token.Sound s.tokens (s.now + bootstrapTokenDuration)
  certs : s.config.certs.Sound s.uploads (s.now + certsDuration)

/-- What any step does to the cluster, as the other requests see it. -/
structure Advances (s s' : State) : Prop where
  token : s.config.token.Later s'.config.token
  certs : s.config.certs.Later s'.config.certs
  version : s.version ≤ s'.version
  same : s.version = s'.version → s'.config = s.config
  tokens : s.tokens ⊆ s'.tokens
  uploads : s.uploads ⊆ s'.uploads
  now : s.now ≤ s'.now

theorem Advances.of_config {s s' : State} (hconfig : s'.config = s.config)
    (hversion : s'.version = s.version) (htokens : s.tokens ⊆ s'.tokens)
    (huploads : s.uploads ⊆ s'.uploads) (hnow : s.now ≤ s'.now) : Advances s s' where
  token := hconfig ▸ Credential.Later.refl _
  certs := hconfig ▸ Credential.Later.refl _
  version := Nat.le_of_eq hversion.symm
  same := fun _ => hconfig
  tokens := htokens
  uploads := huploads
  now := hnow

theorem RequestHolds.mono {s s' : State} {r : Request} (h : RequestHolds s r) (ha : Advances s s') :
    RequestHolds s' r where
  token := h.token.mono ha.token ha.version (fun hv => congrArg Data.token (ha.same hv)) ha.tokens
    ha.now
  certs := h.certs.mono ha.certs ha.version (fun hv => congrArg Data.certs (ha.same hv)) ha.uploads
    ha.now
  parsed := h.parsed
  returned := h.returned

theorem ConfigHolds.of_config {s s' : State} (h : ConfigHolds s) (hconfig : s'.config = s.config)
    (htokens : s.tokens ⊆ s'.tokens) (huploads : s.uploads ⊆ s'.uploads) (hnow : s.now ≤ s'.now) :
    ConfigHolds s' where
  token := hconfig ▸ h.token.mono htokens (Nat.add_le_add_right hnow _)
  certs := hconfig ▸ h.certs.mono huploads (Nat.add_le_add_right hnow _)

/-- The requests share the cluster, and nothing else. -/
def Inv (s : State) : Prop :=
  Processes.Inv ConfigHolds RequestHolds (fun _ _ => True) s s.requests

/-- A step of one request. -/
theorem inv_set {s s' : State} {i : Nat} {r r' : Request} (h : Inv s) (hr : s.requests[i]? = some r)
    (hrequests : s'.requests = s.requests.set i r') (hconfig : ConfigHolds s')
    (ha : Advances s s') (hr' : RequestHolds s' r') : Inv s' := by
  unfold Inv
  rw [hrequests]
  exact Processes.Inv.set h (fun _ _ _ => trivial) hr hconfig hr'
    fun q _ hq _ => ⟨hq.mono ha, trivial⟩

/-- A step that only changes the request. -/
theorem inv_setPhase {s : State} {i : Nat} {r r' : Request} {phase : Phase} (h : Inv s)
    (hr : s.requests[i]? = some r) (hr' : RequestHolds s { r' with phase := phase }) :
    Inv (s.setPhase i r' phase) := by
  have hsub : ∀ issued : List (String × Nat), issued ⊆ issued := fun _ => List.Subset.refl _
  refine inv_set h hr rfl (h.good.of_config rfl (hsub _) (hsub _) (Nat.le_refl _))
    (.of_config rfl rfl (hsub _) (hsub _) (Nat.le_refl _)) ?_
  exact hr'.mono (.of_config rfl rfl (hsub _) (hsub _) (Nat.le_refl _))

theorem inv_fail {s s' : State} {i : Nat} {r : Request} (h : Inv s) (hr : s.requests[i]? = some r)
    (hfail : s.fail i r = some s') : Inv s' := by
  have hfailed : Inv (s.setPhase i r .failed) :=
    inv_setPhase h hr ⟨trivial, trivial, fun heq => (by cases heq), fun _ _ _ heq => (by cases heq)⟩
  unfold State.fail at hfail
  split at hfail
  · cases hfail
  · cases hfail
  · cases hfail
  · cases hfail
    exact hfailed

theorem inv_update {s : State} {i : Nat} {r : Request} {data : Data} {version : Nat} (h : Inv s)
    (hr : s.requests[i]? = some r) (hphase : r.phase = .certsDone data version) :
    Inv (s.update i r data version) := by
  obtain ⟨htoken, hcerts, -, -⟩ := h.each i r hr
  rw [hphase] at htoken hcerts
  obtain ⟨-, htokenLater, htokenSound, htokenFresh⟩ := htoken
  obtain ⟨-, hcertsLater, hcertsSound, hcertsFresh⟩ := hcerts
  unfold State.update
  split
  next hversion =>
    have hsub : ∀ issued : List (String × Nat), issued ⊆ issued := fun _ => List.Subset.refl _
    refine inv_set h hr rfl ⟨htokenSound, hcertsSound⟩
      ⟨htokenLater hversion, hcertsLater hversion, Nat.le_succ _,
        fun heq => absurd heq (Nat.ne_of_lt (Nat.lt_succ_self _)), hsub _, hsub _, Nat.le_refl _⟩ ?_
    exact ⟨⟨htokenSound, htokenFresh⟩, ⟨hcertsSound, hcertsFresh⟩, fun heq => (by cases heq),
      fun _ _ _ heq => (by cases heq)⟩
  next =>
    exact inv_setPhase h hr ⟨trivial, trivial, fun heq => (by cases heq),
      fun _ _ _ heq => (by cases heq)⟩

theorem inv_stepRequest {s s' : State} {i : Nat} {r : Request} (h : Inv s)
    (hr : s.requests[i]? = some r) (hstep : s.stepRequest i r = some s') : Inv s' := by
  obtain ⟨htoken, hcerts, -, -⟩ := h.each i r hr
  have hphase : ∀ {r' : Request} {phase : Phase}, phase ≠ .unparsed →
      (∀ data command expiry, phase ≠ .returned data command expiry) →
      phase.token.Holds s.config.token s.version s.tokens bootstrapTokenDuration s.now True
        r'.tokenCheckedAt →
      phase.certs.Holds s.config.certs s.version s.uploads certsDuration s.now (r'.master = true)
        r'.certsCheckedAt → Inv (s.setPhase i r' phase) :=
    fun hparsed hreturned htoken hcerts => inv_setPhase h hr
      ⟨htoken, hcerts, hparsed, fun data command expiry heq => absurd heq (hreturned _ _ _)⟩
  unfold State.stepRequest at hstep
  split at hstep
  next heq =>
    cases hstep
    exact hphase (fun h => by cases h) (fun _ _ _ h => by cases h) (Credential.Later.refl _)
      (Credential.Later.refl _)
  next data heq =>
    cases hstep
    rw [heq] at htoken hcerts
    exact hphase (fun h => by cases h) (fun _ _ _ h => by cases h)
      (Stage.check htoken fun _ => id) hcerts
  next data regenerate heq =>
    cases hstep
    rw [heq] at htoken hcerts
    refine hphase (fun h => by cases h) (fun _ _ _ h => by cases h) htoken
      (Stage.check hcerts fun hmaster hkept => ?_)
    unfold shouldUploadCerts at hkept
    rw [hmaster, Bool.true_and] at hkept
    exact hkept
  next regenerate upload heq =>
    cases hstep
    rw [heq] at htoken hcerts
    refine hphase (fun h => by cases h) (fun _ _ _ h => by cases h)
      (Stage.copy htoken h.good.token fun hkept => ?_) (Stage.copy hcerts h.good.certs id)
    split at hkept
    · cases hkept
    · exact hkept
  next data version generate upload heq =>
    rw [heq] at htoken hcerts
    split at hstep
    next =>
      cases hstep
      exact hphase (fun h => by cases h) (fun _ _ _ h => by cases h)
        (Stage.stamp htoken h.good.token) hcerts
    next hgenerate =>
      cases hstep
      rw [Bool.not_eq_true] at hgenerate
      subst hgenerate
      exact hphase (fun h => by cases h) (fun _ _ _ h => by cases h) (Stage.keep htoken) hcerts
  next data version upload heq =>
    rw [heq] at htoken hcerts
    split at hstep
    next =>
      cases hstep
      exact hphase (fun h => by cases h) (fun _ _ _ h => by cases h) htoken
        (Stage.stamp hcerts h.good.certs)
    next hupload =>
      cases hstep
      rw [Bool.not_eq_true] at hupload
      subst hupload
      exact hphase (fun h => by cases h) (fun _ _ _ h => by cases h) htoken (Stage.keep hcerts)
  next data version heq =>
    cases hstep
    exact inv_update h hr heq
  next data heq =>
    rw [heq] at htoken hcerts
    split at hstep
    next expiry hexpiry =>
      cases hstep
      refine inv_setPhase h hr ⟨htoken, hcerts, fun heq => (by cases heq), ?_⟩
      intro data' command expiry' heq'
      cases heq'
      exact ⟨rfl, hexpiry⟩
    next hnone =>
      -- what is stored always parses
      obtain ⟨t, ht, -⟩ := htoken.2 trivial
      rw [ht] at hnone
      cases hnone
  all_goals cases hstep

theorem inv_generate {s s' : State} {i : Nat} {r : Request} {token : String} (h : Inv s)
    (hr : s.requests[i]? = some r) (hstep : s.generateBootstrapToken i r token = some s') :
    Inv s' := by
  obtain ⟨htoken, hcerts, -, -⟩ := h.each i r hr
  unfold State.generateBootstrapToken at hstep
  split at hstep
  next data version expiration upload heq =>
    cases hstep
    rw [heq] at htoken hcerts
    have hsub := List.subset_append_left s.tokens [(token, s.expires bootstrapTokenDuration)]
    have hsub' := List.Subset.refl s.uploads
    refine inv_set h hr rfl (h.good.of_config rfl hsub hsub' (Nat.le_refl _))
      (.of_config rfl rfl hsub hsub' (Nat.le_refl _)) ⟨?_, hcerts, fun heq => (by cases heq),
        fun _ _ _ heq => (by cases heq)⟩
    exact Stage.renew (by decide) htoken
  next => cases hstep

theorem inv_upload {s s' : State} {i : Nat} {r : Request} {key : String} (h : Inv s)
    (hr : s.requests[i]? = some r) (hstep : s.uploadCertsWithNewKey i r key = some s') :
    Inv s' := by
  obtain ⟨htoken, hcerts, -, -⟩ := h.each i r hr
  unfold State.uploadCertsWithNewKey at hstep
  split at hstep
  next data version expiration heq =>
    cases hstep
    rw [heq] at htoken hcerts
    have hsub := List.Subset.refl s.tokens
    have hsub' := List.subset_append_left s.uploads [(key, s.expires certsDuration)]
    refine inv_set h hr rfl (h.good.of_config rfl hsub hsub' (Nat.le_refl _))
      (.of_config rfl rfl hsub hsub' (Nat.le_refl _)) ⟨htoken, ?_, fun heq => (by cases heq),
        fun _ _ _ heq => (by cases heq)⟩
    exact Stage.renew (by decide) hcerts
  next => cases hstep

theorem inv_step {s s' : State} {a : Action} (h : Inv s) (hstep : requests.step s a = some s') :
    Inv s' := by
  cases a with
  | tick duration =>
    cases hstep
    have hnow := Nat.le_add_right s.now duration
    have hsub : ∀ issued : List (String × Nat), issued ⊆ issued := fun _ => List.Subset.refl _
    exact Processes.Inv.share h (h.good.of_config rfl (hsub _) (hsub _) hnow)
      fun r _ hr => hr.mono (.of_config rfl rfl (hsub _) (hsub _) hnow)
  | start master gitVersion =>
    cases hstep
    have hsub : ∀ issued : List (String × Nat), issued ⊆ issued := fun _ => List.Subset.refl _
    have hshared : Processes.Inv ConfigHolds RequestHolds (fun _ _ => True)
        { s with requests := s.requests ++ [{ master := master, gitVersion := gitVersion }] }
        s.requests :=
      Processes.Inv.share h (h.good.of_config rfl (hsub _) (hsub _) (Nat.le_refl _))
        fun r _ hr => hr.mono (.of_config rfl rfl (hsub _) (hsub _) (Nat.le_refl _))
    exact hshared.concat (fun _ _ _ => trivial)
      ⟨trivial, trivial, fun heq => (by cases heq), fun _ _ _ heq => (by cases heq)⟩
      fun _ _ _ => trivial
  | step i =>
    obtain ⟨r, hr, hstep⟩ := Option.bind_eq_some_iff.mp hstep
    exact inv_stepRequest h hr hstep
  | generateBootstrapToken i token =>
    obtain ⟨r, hr, hstep⟩ := Option.bind_eq_some_iff.mp hstep
    exact inv_generate h hr hstep
  | uploadCertsWithNewKey i key =>
    obtain ⟨r, hr, hstep⟩ := Option.bind_eq_some_iff.mp hstep
    exact inv_upload h hr hstep
  | fail i =>
    obtain ⟨r, hr, hstep⟩ := Option.bind_eq_some_iff.mp hstep
    exact inv_fail h hr hstep

/-- The installer has recorded nothing, or what it made as `UpdateConfigMap` does. -/
def Installed (s : State) : Prop := s.requests = [] ∧ ConfigHolds s

/-- **What a join command is good for.**  However the requests interleave, fail and wait: a command
that is returned has a token that was created, is recorded to expire no later than it does, and when
the request checked it had the period left or was renewed; for a master the same holds of the key of
the certificates.  The expiration that is returned is the recorded one, and it always parses. -/
theorem command_outlasts : requests.EveryState Installed Machine.Free fun s => ∀ r ∈ s.requests,
    r.phase ≠ .unparsed ∧
    ∀ data command expiry, r.phase = .returned data command expiry →
      command = joinCommand data r.gitVersion r.master ∧
      (∃ token e, data.token.secret = some token ∧ (token, e) ∈ s.tokens ∧ expiry ≤ e ∧
        r.tokenCheckedAt + configExpirationRegeneratePeriod ≤ expiry) ∧
      (r.master = true → ∃ key e t, data.certs.secret = some key ∧ data.certs.expiry = some t ∧
        (key, e) ∈ s.uploads ∧ t ≤ e ∧
        r.certsCheckedAt + configExpirationRegeneratePeriod ≤ t) := by
  intro s hs r hr
  have hinv : Inv s := by
    refine Machine.everyState_of_inv ?_ (fun _ _ _ h _ hstep => inv_step h hstep) s hs
    rintro t ⟨hrequests, hconfig⟩
    unfold Inv
    rw [hrequests]
    exact Processes.inv_nil hconfig
  obtain ⟨i, hi⟩ := List.mem_iff_getElem?.mp hr
  obtain ⟨htoken, hcerts, hparsed, hreturned⟩ := hinv.each i r hi
  refine ⟨hparsed, fun data command expiry hphase => ?_⟩
  obtain ⟨hcommand, hexpiry⟩ := hreturned data command expiry hphase
  rw [hphase] at htoken hcerts
  refine ⟨hcommand, ?_, fun hmaster => ?_⟩
  · obtain ⟨hsound, hfresh⟩ := htoken
    obtain ⟨t, ht, hle⟩ := hfresh trivial
    rw [hexpiry] at ht
    cases ht
    obtain ⟨token, e, hsecret, hmem, hle'⟩ := hsound.issued expiry hexpiry
    exact ⟨token, e, hsecret, hmem, hle', hle⟩
  · obtain ⟨hsound, hfresh⟩ := hcerts
    obtain ⟨t, ht, hle⟩ := hfresh hmaster
    obtain ⟨key, e, hsecret, hmem, hle'⟩ := hsound.issued t ht
    exact ⟨key, e, t, hsecret, ht, hmem, hle', hle⟩

end Kotsadm.Kurl.NodeJoin
