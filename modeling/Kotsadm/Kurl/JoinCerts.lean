import Kotsadm.Kurl.JoinTokens

/-!
# JoinCerts — the key that a master is given

The cluster keeps the certificates that were uploaded last, and only the key they were uploaded with
opens them.  Requests that overlap can leave another key in the config map, and every command for a
master has it until its recorded expiration comes near.
-/

namespace Kotsadm.Kurl.NodeJoin

def Phase.finished : Phase → Bool
  | .returned .. | .unparsed | .failed => true
  | _ => false

/-- The key opens the certificates that the cluster has. -/
def Opens (s : State) (c : Credential) : Prop :=
  ∃ key, c.secret = some key ∧ s.uploads.getLast?.map Prod.fst = some key

/-- A request begins when no other is on its way. -/
def Alone (s : State) : Action → Prop
  | .start .. => ∀ r ∈ s.requests, r.phase.finished = true
  | _ => True

/-- The config map was updated with the data that the command is made of. -/
def HandsOut (s : State) (a : Action) (data : Data) : Prop :=
  ∃ i r, a = .step i ∧ s.requests[i]? = some r ∧ r.master = true ∧ r.phase = .updated data

/-! ## Requests that do not overlap -/

namespace Alone

/-- The recorded expiration is near, or past. -/
def Stale (now : Nat) (c : Credential) : Prop :=
  ∀ t, c.expiry = some t → t < now + configExpirationRegeneratePeriod

def Good (s : State) : Prop := Stale s.now s.config.certs ∨ Opens s s.config.certs

/-- What the check of the certificates has found, for a request that will upload them or not. -/
def Found (s : State) (master upload : Bool) : Prop :=
  (upload = true → Stale s.now s.config.certs) ∧
  (upload = false → master = true → Opens s s.config.certs)

def Each (s : State) (r : Request) : Prop :=
  match r.phase with
  | .read data | .tokenChecked data _ => data.certs = s.config.certs
  | .checked _ upload => Found s r.master upload
  | .got data _ _ upload | .stamped data _ _ upload | .tokenDone data _ upload =>
    data.certs = s.config.certs ∧ Found s r.master upload
  | .certsStamped _ _ _ => Stale s.now s.config.certs
  | .certsDone data _ =>
    (Opens s data.certs ∨ data.certs = s.config.certs) ∧ (r.master = true → Opens s data.certs)
  | .updated data => r.master = true → Opens s data.certs
  | .started | .returned .. | .unparsed | .failed => True

def Apart (p q : Request) : Prop := p.phase.finished = true ∨ q.phase.finished = true

def Inv (s : State) : Prop := Processes.Inv Good Each Apart s s.requests

theorem stale_mono {now now' : Nat} {c : Credential} (h : Stale now c) (hle : now ≤ now') :
    Stale now' c := fun t ht => Nat.lt_of_lt_of_le (h t ht) (Nat.add_le_add_right hle _)

theorem stale_of_expires {now : Nat} {c : Credential} (h : c.expires now = true) : Stale now c := by
  intro t ht
  unfold Credential.expiry at ht
  obtain ⟨value, hvalue, hparse⟩ := Option.bind_eq_some_iff.mp ht
  unfold Credential.expires at h
  rw [hvalue] at h
  dsimp only at h
  rw [hparse] at h
  simpa using h

theorem each_of_finished {s : State} {r : Request} (h : r.phase.finished = true) : Each s r := by
  unfold Each
  cases hphase : r.phase with
  | returned | unparsed | failed => trivial
  | _ =>
    rw [hphase] at h
    cases h

theorem apart_symm (p q : Request) (h : Apart p q) : Apart q p := h.symm

/-- The others are finished, whatever the step does. -/
theorem inv_set {s s' : State} {i : Nat} {r r' : Request} (h : Inv s) (hr : s.requests[i]? = some r)
    (hactive : r.phase.finished = false) (hrequests : s'.requests = s.requests.set i r')
    (hgood : Good s') (hr' : Each s' r') : Inv s' := by
  unfold Inv
  rw [hrequests]
  refine Processes.Inv.set h apart_symm hr hgood hr' fun q _ _ happart => ?_
  have hq : q.phase.finished = true := by
    rcases happart with hp | hq
    · rw [hactive] at hp
      cases hp
    · exact hq
  exact ⟨each_of_finished hq, .inr hq⟩

theorem inv_update {s : State} {i : Nat} {r : Request} {data : Data} {version : Nat} (h : Inv s)
    (hr : s.requests[i]? = some r) (hphase : r.phase = .certsDone data version) :
    Inv (s.update i r data version) := by
  have heach := h.each i r hr
  unfold Each at heach
  rw [hphase] at heach
  obtain ⟨hdata, hmaster⟩ := heach
  have hactive : r.phase.finished = false := by
    rw [hphase]
    rfl
  unfold State.update
  split
  next =>
    refine inv_set h hr hactive rfl ?_ hmaster
    rcases hdata with hopens | hsame
    · exact .inr hopens
    · rcases h.good with hstale | hopens
      · exact .inl (hsame ▸ hstale)
      · exact .inr (hsame ▸ hopens)
  next => exact inv_set h hr hactive rfl h.good trivial

theorem inv_stepRequest {s s' : State} {i : Nat} {r : Request} (h : Inv s)
    (hr : s.requests[i]? = some r) (hstep : s.stepRequest i r = some s') : Inv s' := by
  have heach := h.each i r hr
  unfold Each at heach
  unfold State.stepRequest at hstep
  split at hstep
  next heq =>
    cases hstep
    exact inv_set h hr (by rw [heq]; rfl) rfl h.good rfl
  next data heq =>
    cases hstep
    rw [heq] at heach
    exact inv_set h hr (by rw [heq]; rfl) rfl h.good heach
  next data regenerate heq =>
    cases hstep
    rw [heq] at heach
    refine inv_set h hr (by rw [heq]; rfl) rfl h.good ⟨fun hupload => ?_, fun hkept hmaster => ?_⟩
    · have hexpires : data.certs.expires s.now = true := (Bool.and_eq_true_iff.mp hupload).2
      rw [heach] at hexpires
      exact stale_of_expires hexpires
    · have hexpires : data.certs.expires s.now = false := by
        change (r.master && data.certs.expires s.now) = false at hkept
        change r.master = true at hmaster
        rw [hmaster, Bool.true_and] at hkept
        exact hkept
      rw [heach] at hexpires
      -- the config map is not stale, so its key opens
      rcases h.good with hstale | hopens
      · obtain ⟨t, ht, hle⟩ := Credential.fresh_of_not_expires hexpires
        exact absurd (hstale t ht) (Nat.not_lt.mpr hle)
      · exact hopens
  next regenerate upload heq =>
    cases hstep
    rw [heq] at heach
    exact inv_set h hr (by rw [heq]; rfl) rfl h.good ⟨rfl, heach⟩
  next data version generate upload heq =>
    rw [heq] at heach
    split at hstep
    · cases hstep
      exact inv_set h hr (by rw [heq]; rfl) rfl h.good heach
    · cases hstep
      exact inv_set h hr (by rw [heq]; rfl) rfl h.good heach
  next data version upload heq =>
    rw [heq] at heach
    obtain ⟨hsame, hstale, hopens⟩ := heach
    split at hstep
    next hupload =>
      cases hstep
      exact inv_set h hr (by rw [heq]; rfl) rfl h.good (hstale hupload)
    next hupload =>
      cases hstep
      rw [Bool.not_eq_true] at hupload
      refine inv_set h hr (by rw [heq]; rfl) rfl h.good ⟨.inr hsame, fun hmaster => ?_⟩
      rw [hsame]
      exact hopens hupload hmaster
  next data version heq =>
    cases hstep
    exact inv_update h hr heq
  next data heq =>
    split at hstep <;>
      (cases hstep; exact inv_set h hr (by rw [heq]; rfl) rfl h.good trivial)
  all_goals cases hstep

theorem inv_step {s s' : State} {a : Action} (h : Inv s) (ha : Alone s a)
    (hstep : requests.step s a = some s') : Inv s' := by
  cases a with
  | tick duration =>
    cases hstep
    have hle := Nat.le_add_right s.now duration
    refine Processes.Inv.share h ?_ fun r _ hr => ?_
    · rcases h.good with hstale | hopens
      · exact .inl (stale_mono hstale hle)
      · exact .inr hopens
    · unfold Each at hr ⊢
      split at hr
      · exact hr
      · exact hr
      · exact ⟨fun hupload => stale_mono (hr.1 hupload) hle, hr.2⟩
      · exact ⟨hr.1, fun hupload => stale_mono (hr.2.1 hupload) hle, hr.2.2⟩
      · exact ⟨hr.1, fun hupload => stale_mono (hr.2.1 hupload) hle, hr.2.2⟩
      · exact ⟨hr.1, fun hupload => stale_mono (hr.2.1 hupload) hle, hr.2.2⟩
      · exact stale_mono hr hle
      · exact hr
      · exact hr
      all_goals trivial
  | start master gitVersion =>
    cases hstep
    have hshared : Processes.Inv Good Each Apart
        { s with requests := s.requests ++ [{ master := master, gitVersion := gitVersion }] }
        s.requests := Processes.Inv.share h h.good fun _ _ hr => hr
    exact hshared.concat apart_symm trivial fun q hq _ => .inr (ha q hq)
  | step i =>
    obtain ⟨r, hr, hstep⟩ := Option.bind_eq_some_iff.mp hstep
    exact inv_stepRequest h hr hstep
  | generateBootstrapToken i token =>
    obtain ⟨r, hr, hstep⟩ := Option.bind_eq_some_iff.mp hstep
    have heach := h.each i r hr
    unfold Each at heach
    unfold State.generateBootstrapToken at hstep
    split at hstep
    next heq =>
      cases hstep
      rw [heq] at heach
      exact inv_set h hr (by rw [heq]; rfl) rfl h.good heach
    next => cases hstep
  | uploadCertsWithNewKey i key =>
    obtain ⟨r, hr, hstep⟩ := Option.bind_eq_some_iff.mp hstep
    have heach := h.each i r hr
    unfold Each at heach
    unfold State.uploadCertsWithNewKey at hstep
    split at hstep
    next data version expiration heq =>
      cases hstep
      rw [heq] at heach
      have hopens : Opens { s with uploads := s.uploads ++ [(key, s.expires certsDuration)] }
          (.record key expiration) := by
        refine ⟨key, rfl, ?_⟩
        show (s.uploads ++ [(key, s.expires certsDuration)]).getLast?.map Prod.fst = some key
        rw [List.getLast?_concat]
        rfl
      exact inv_set h hr (by rw [heq]; rfl) rfl (.inl heach) ⟨.inl hopens, fun _ => hopens⟩
    next => cases hstep
  | fail i =>
    obtain ⟨r, hr, hstep⟩ := Option.bind_eq_some_iff.mp hstep
    unfold State.fail at hstep
    split at hstep
    · cases hstep
    · cases hstep
    · cases hstep
    next hreturned hunparsed hfailed =>
      cases hstep
      refine inv_set h hr ?_ rfl h.good trivial
      cases hphase : r.phase with
      | returned data command expiry => exact absurd hphase (hreturned data command expiry)
      | unparsed => exact absurd hphase hunparsed
      | failed => exact absurd hphase hfailed
      | _ => rfl

end Alone

/-! ## A key that opens nothing -/

/-- No request is on its way, and the config map has a key that lasts until `t` and is not the one the
certificates were uploaded with. -/
structure Broken (s : State) (t : Nat) : Prop where
  finished : ∀ r ∈ s.requests, r.phase.finished = true
  expiry : s.config.certs.expiry = some t
  left : s.now + configExpirationRegeneratePeriod ≤ t
  closed : ¬ Opens s s.config.certs

/-- Until the period before `t`. -/
def Before (t : Nat) (s : State) : Action → Prop
  | .tick duration => s.now + duration + configExpirationRegeneratePeriod ≤ t
  | _ => True

namespace Broken

/-- Nobody renews the certificates, so every copy of the config map has the same key. -/
def Each (c : Credential) (r : Request) : Prop :=
  match r.phase with
  | .read data | .tokenChecked data _ => data.certs = c
  | .checked _ upload => upload = false
  | .got data _ _ upload | .stamped data _ _ upload | .tokenDone data _ upload =>
    data.certs = c ∧ upload = false
  | .certsStamped _ _ _ => False
  | .certsDone data _ | .updated data => data.certs = c
  | .started | .returned .. | .unparsed | .failed => True

structure Inv (c : Credential) (uploads : List (String × Nat)) (t : Nat) (s : State) : Prop where
  certs : s.config.certs = c
  uploads : s.uploads = uploads
  left : s.now + configExpirationRegeneratePeriod ≤ t
  each : ∀ r ∈ s.requests, Each c r

variable {c : Credential} {uploads : List (String × Nat)} {t : Nat} {s s' : State}

theorem not_expires (hc : c.expiry = some t) {now : Nat}
    (hleft : now + configExpirationRegeneratePeriod ≤ t) : c.expires now = false := by
  cases hexpires : c.expires now with
  | false => rfl
  | true => exact absurd (Alone.stale_of_expires hexpires t hc) (Nat.not_lt.mpr hleft)

theorem inv_set (h : Inv c uploads t s) {i : Nat} {r : Request}
    (hrequests : s'.requests = s.requests.set i r) (hcerts : s'.config.certs = c)
    (huploads : s'.uploads = s.uploads) (hnow : s'.now = s.now) (hr : Each c r) :
    Inv c uploads t s' where
  certs := hcerts
  uploads := huploads.trans h.uploads
  left := hnow ▸ h.left
  each := by
    intro q hq
    rw [hrequests] at hq
    rcases List.mem_or_eq_of_mem_set hq with hq | rfl
    · exact h.each q hq
    · exact hr

theorem inv_stepRequest (hc : c.expiry = some t) (h : Inv c uploads t s) {i : Nat} {r : Request}
    (hr : s.requests[i]? = some r) (hstep : s.stepRequest i r = some s') : Inv c uploads t s' := by
  have heach := h.each r (List.mem_of_getElem? hr)
  unfold Each at heach
  unfold State.stepRequest at hstep
  split at hstep
  next heq =>
    cases hstep
    exact inv_set h rfl h.certs rfl rfl h.certs
  next data heq =>
    cases hstep
    rw [heq] at heach
    exact inv_set h rfl h.certs rfl rfl heach
  next data regenerate heq =>
    cases hstep
    rw [heq] at heach
    have hkept : shouldUploadCerts s.now data r.master = false := by
      unfold shouldUploadCerts
      rw [heach, not_expires hc h.left, Bool.and_false]
    exact inv_set h rfl h.certs rfl rfl hkept
  next regenerate upload heq =>
    cases hstep
    rw [heq] at heach
    exact inv_set h rfl h.certs rfl rfl ⟨h.certs, heach⟩
  next data version generate upload heq =>
    rw [heq] at heach
    split at hstep <;> (cases hstep; exact inv_set h rfl h.certs rfl rfl heach)
  next data version upload heq =>
    rw [heq] at heach
    obtain ⟨hcerts, hupload⟩ := heach
    rw [hupload] at hstep
    cases hstep
    exact inv_set h rfl h.certs rfl rfl hcerts
  next data version heq =>
    cases hstep
    rw [heq] at heach
    unfold State.update
    split
    · exact inv_set h rfl heach rfl rfl heach
    · exact inv_set h rfl h.certs rfl rfl trivial
  next data heq =>
    split at hstep <;> (cases hstep; exact inv_set h rfl h.certs rfl rfl trivial)
  all_goals cases hstep

theorem inv_step (hc : c.expiry = some t) (h : Inv c uploads t s) {a : Action} (ha : Before t s a)
    (hstep : requests.step s a = some s') : Inv c uploads t s' := by
  cases a with
  | tick duration =>
    cases hstep
    exact ⟨h.certs, h.uploads, ha, h.each⟩
  | start master gitVersion =>
    cases hstep
    refine ⟨h.certs, h.uploads, h.left, fun r hr => ?_⟩
    rcases List.mem_append.mp hr with hr | hr
    · exact h.each r hr
    · rw [List.mem_singleton.mp hr]
      trivial
  | step i =>
    obtain ⟨r, hr, hstep⟩ := Option.bind_eq_some_iff.mp hstep
    exact inv_stepRequest hc h hr hstep
  | generateBootstrapToken i token =>
    obtain ⟨r, hr, hstep⟩ := Option.bind_eq_some_iff.mp hstep
    have heach := h.each r (List.mem_of_getElem? hr)
    unfold Each at heach
    unfold State.generateBootstrapToken at hstep
    split at hstep
    next heq =>
      cases hstep
      rw [heq] at heach
      exact inv_set h rfl h.certs rfl rfl heach
    next => cases hstep
  | uploadCertsWithNewKey i key =>
    obtain ⟨r, hr, hstep⟩ := Option.bind_eq_some_iff.mp hstep
    have heach := h.each r (List.mem_of_getElem? hr)
    unfold Each at heach
    unfold State.uploadCertsWithNewKey at hstep
    split at hstep
    next heq =>
      rw [heq] at heach
      exact heach.elim
    next => cases hstep
  | fail i =>
    obtain ⟨r, hr, hstep⟩ := Option.bind_eq_some_iff.mp hstep
    unfold State.fail at hstep
    split at hstep
    · cases hstep
    · cases hstep
    · cases hstep
    · cases hstep
      exact inv_set h rfl h.certs rfl rfl trivial

theorem inv_init (h : Broken s t) : Inv s.config.certs s.uploads t s where
  certs := rfl
  uploads := rfl
  left := h.left
  each := by
    intro r hr
    have hfinished := h.finished r hr
    unfold Each
    cases hphase : r.phase with
    | returned | unparsed | failed => trivial
    | _ =>
      rw [hphase] at hfinished
      cases hfinished

end Broken

/-- Two masters at once: both find that there is nothing yet, the second uploads its certificates last,
and the first writes the config map first. -/
def twoMasters : List Action :=
  [.start true "v1.17.3", .start true "v1.17.3",
    .step 0, .step 0, .step 0, .step 0, .step 1, .step 1, .step 1, .step 1,
    .step 0, .generateBootstrapToken 0 "abcdef.0", .step 0, .uploadCertsWithNewKey 0 "first",
    .step 1, .generateBootstrapToken 1 "abcdef.1", .step 1, .uploadCertsWithNewKey 1 "second",
    .step 0, .step 0, .step 1]

/-- The installer has recorded no key, one that is stale, or the one of its certificates. -/
def InstalledKey (s : State) : Prop := s.requests = [] ∧ Alone.Good s

theorem broken_reachable :
    ∃ s, requests.Reachable InstalledKey Machine.Free s ∧ ∃ t, Broken s t := by
  have hinit : InstalledKey { now := 0, config := {} } :=
    ⟨rfl, .inl fun t ht => by cases ht⟩
  have hend : (requests.run { now := 0, config := {} } twoMasters).map (fun s =>
      (s.requests.all fun r => r.phase.finished, s.config.certs, s.uploads.getLast?.map Prod.fst,
        s.now)) = some (true, .record "first" (2 * hour), some "second", 0) := by decide
  obtain ⟨s, hrun, hs⟩ := Option.map_eq_some_iff.mp hend
  simp only [Prod.mk.injEq] at hs
  obtain ⟨hfinished, hcerts, hlast, hnow⟩ := hs
  refine ⟨s, (Machine.Reachable.init hinit).run twoMasters (fun _ _ _ => trivial) hrun, 2 * hour,
    List.all_eq_true.mp hfinished, ?_, ?_, ?_⟩
  · rw [hcerts]
    decide
  · rw [hnow]
    decide
  · rintro ⟨key, hkey, hopens⟩
    rw [hcerts] at hkey
    rw [hlast] at hopens
    cases hkey
    exact absurd hopens (by decide)

/-- **Which key a master is given.**  When requests do not overlap, the key of every command for a
master opens the certificates that the cluster has.  Two that overlap can break this: then the key of
every later command opens nothing, until the period before its recorded expiration. -/
theorem cert_key_opens :
    (requests.EveryStep InstalledKey Alone fun s a s' =>
      ∀ data, HandsOut s a data → Opens s' data.certs) ∧
    (∃ s, requests.Reachable InstalledKey Machine.Free s ∧ ∃ t, Broken s t) ∧
    ∀ s t, Broken s t → requests.EveryStep (· = s) (Before t) fun s a s' =>
      ∀ data, HandsOut s a data → ¬ Opens s' data.certs := by
  have huploads : ∀ {s s' : State} {a : Action} {data : Data}, HandsOut s a data →
      requests.step s a = some s' → s'.uploads = s.uploads := by
    rintro s s' a data ⟨i, r, rfl, hr, -, hphase⟩ hstep
    obtain ⟨r', hr', hstep⟩ := Option.bind_eq_some_iff.mp hstep
    obtain rfl := Option.some.inj (hr.symm.trans hr')
    unfold State.stepRequest at hstep
    rw [hphase] at hstep
    dsimp only at hstep
    split at hstep <;> (cases hstep; rfl)
  refine ⟨?_, broken_reachable, ?_⟩
  · intro s a s' hs _ hstep data hdata
    have hinv : Alone.Inv s := by
      refine Machine.everyState_of_inv ?_ (fun _ _ _ h ha hstep => Alone.inv_step h ha hstep) s hs
      rintro u ⟨hrequests, hgood⟩
      unfold Alone.Inv
      rw [hrequests]
      exact Processes.inv_nil hgood
    have hsame := huploads hdata hstep
    obtain ⟨i, r, rfl, hr, hmaster, hphase⟩ := hdata
    have heach := hinv.each i r hr
    unfold Alone.Each at heach
    rw [hphase] at heach
    unfold Opens
    rw [hsame]
    exact heach hmaster
  · intro s t hbroken u a u' hu _ hstep data hdata
    have hinv : Broken.Inv s.config.certs s.uploads t u := by
      refine Machine.everyState_of_inv ?_
        (fun _ _ _ h ha hstep => Broken.inv_step hbroken.expiry h ha hstep) u hu
      rintro v rfl
      exact Broken.inv_init hbroken
    have hsame := huploads hdata hstep
    obtain ⟨i, r, rfl, hr, hmaster, hphase⟩ := hdata
    have heach := hinv.each r (List.mem_of_getElem? hr)
    unfold Broken.Each at heach
    rw [hphase] at heach
    unfold Opens
    rw [hsame, hinv.uploads]
    change data.certs = s.config.certs at heach
    rw [heach]
    exact hbroken.closed

end Kotsadm.Kurl.NodeJoin
