import Kotsadm.Lib.Dictionary

/-!
# Sessions — events of interleaved sessions

Every event has a key.  Some events start a session, and the others update the session of their
key that is open.  A session is closed where another one with its key starts.

`run` keeps the open sessions in a dictionary, and `sessions` says what is in each one: the events
with its key, from its start to the next one.
-/

namespace Sessions

variable {ε κ σ : Type*} [DecidableEq κ]

/-! ## One pass with a dictionary -/

structure State (κ σ : Type*) where
  closed : List σ
  opened : Dictionary κ σ

def State.all (st : State κ σ) : List σ := st.closed ++ st.opened.values

variable (key : ε → κ) (start : ε → Option σ) (update : ε → σ → σ)

def step (st : State κ σ) (e : ε) : State κ σ :=
  match start e with
  | some s =>
    { closed := st.closed ++ (st.opened.get (key e)).toList
      opened := (st.opened.remove (key e)).set (key e) s }
  | none => { st with opened := st.opened.modify (key e) (update e) }

def run (st : State κ σ) (es : List ε) : State κ σ := es.foldl (step key start update) st

/-! ## What is in a session -/

/-- The session of `k` that has come to `s`, until another one starts. -/
def session (k : κ) (s : σ) : List ε → σ
  | [] => s
  | e :: es =>
    if key e = k then
      if (start e).isSome then s else session k (update e s) es
    else session k s es

def sessions : List ε → List σ
  | [] => []
  | e :: es =>
    match start e with
    | some s => session key start update (key e) s es :: sessions es
    | none => sessions es

variable {key start update}

/-- The events of other sessions do not matter. -/
theorem session_of_ne {k : κ} {e : ε} (h : key e ≠ k) (s : σ) (es : List ε) :
    session key start update k s (e :: es) = session key start update k s es := by
  rw [session, if_neg h]

/-- The next start with its key ends a session. -/
theorem session_of_start {k : κ} {e : ε} (h : key e = k) (hstart : (start e).isSome) (s : σ)
    (es : List ε) : session key start update k s (e :: es) = s := by
  rw [session, if_pos h, if_pos hstart]

theorem session_of_update {k : κ} {e : ε} (h : key e = k) (hstart : start e = none) (s : σ)
    (es : List ε) :
    session key start update k s (e :: es) = session key start update k (update e s) es := by
  rw [session, if_pos h, hstart, if_neg (by simp)]

/-- A session is made of the events with its key, until another one starts. -/
theorem session_eq_foldl (k : κ) (s : σ) (es : List ε) : session key start update k s es =
    ((es.takeWhile fun e => !((start e).isSome && decide (key e = k))).filter
      fun e => decide (key e = k)).foldl (fun s e => update e s) s := by
  induction es generalizing s with
  | nil => rfl
  | cons e es ih =>
    by_cases hk : key e = k
    · cases hstart : start e with
      | some s' =>
        rw [session_of_start hk (by rw [hstart]; rfl),
          List.takeWhile_cons_of_neg (by simp [hstart, hk])]
        rfl
      | none =>
        rw [session_of_update hk hstart, ih, List.takeWhile_cons_of_pos (by simp [hstart]),
          List.filter_cons_of_pos (by simp [hk]), List.foldl_cons]
    · rw [session_of_ne hk, ih, List.takeWhile_cons_of_pos (by simp [hk]),
        List.filter_cons_of_neg (by simp [hk])]

/-- What the open sessions come to. -/
def State.finish (key : ε → κ) (start : ε → Option σ) (update : ε → σ → σ) (st : State κ σ)
    (es : List ε) : List σ :=
  st.closed ++ st.opened.rows.map fun row => session key start update row.1 row.2 es

theorem finish_step_start {st : State κ σ} {e : ε} {s : σ} (hstart : start e = some s)
    (es : List ε) :
    ((step key start update st e).finish key start update es).Perm
      (st.finish key start update (e :: es) ++ [session key start update (key e) s es]) := by
  have hother : (st.opened.remove (key e)).rows.map
        (fun row => session key start update row.1 row.2 (e :: es)) =
      (st.opened.remove (key e)).rows.map
        (fun row => session key start update row.1 row.2 es) := by
    apply List.map_congr_left
    intro row hrow
    exact session_of_ne (Ne.symm (Dictionary.mem_remove.mp hrow).2) _ _
  -- the session that is closed is complete: its next event is a start
  have hclosed : ((st.opened.get (key e)).toList ++ (st.opened.remove (key e)).rows.map
        (fun row => session key start update row.1 row.2 (e :: es))).Perm
      (st.opened.rows.map fun row => session key start update row.1 row.2 (e :: es)) := by
    cases hget : st.opened.get (key e) with
    | none =>
      rw [Dictionary.remove_of_get_eq_none hget]
      exact List.Perm.refl _
    | some old =>
      have hperm := (Dictionary.rows_perm hget).map
        fun row => session key start update row.1 row.2 (e :: es)
      rw [List.map_cons, session_of_start rfl (by rw [hstart]; rfl)] at hperm
      exact hperm.symm
  unfold step State.finish
  rw [hstart]
  dsimp only
  rw [Dictionary.rows_set Dictionary.get_remove, List.map_append, ← hother, List.append_assoc,
    List.append_assoc, ← List.append_assoc (Option.toList _)]
  exact (hclosed.append_right _).append_left _

theorem finish_step_update {st : State κ σ} {e : ε} (hstart : start e = none) (es : List ε) :
    (step key start update st e).finish key start update es =
      st.finish key start update (e :: es) := by
  unfold step State.finish
  rw [hstart]
  dsimp only
  congr 1
  show (st.opened.rows.map _).map _ = _
  rw [List.map_map]
  apply List.map_congr_left
  intro row _
  rw [Function.comp_apply]
  by_cases hk : row.1 = key e
  · rw [if_pos (decide_eq_true hk), session_of_update hk.symm hstart]
  · rw [if_neg (by simpa using hk), session_of_ne (Ne.symm hk)]

/-- **One pass collects every session.** -/
theorem all_run (st : State κ σ) (es : List ε) :
    (run key start update st es).all.Perm
      (st.finish key start update es ++ sessions key start update es) := by
  induction es generalizing st with
  | nil =>
    show (st.closed ++ st.opened.rows.map Prod.snd).Perm
      ((st.closed ++ st.opened.rows.map Prod.snd) ++ [])
    rw [List.append_nil]
  | cons e es ih =>
    refine (ih (step key start update st e)).trans ?_
    -- a start adds one session, an update is already counted in an open one
    cases hstart : start e with
    | none =>
      rw [finish_step_update hstart, sessions, hstart]
    | some s =>
      rw [sessions, hstart]
      have hperm : ((step key start update st e).finish key start update es).Perm
          (st.finish key start update (e :: es) ++ [session key start update (key e) s es]) :=
        finish_step_start hstart es
      have hall := hperm.append_right (sessions key start update es)
      rw [List.append_assoc, List.singleton_append] at hall
      exact hall

theorem get_step_eq_none {st : State κ σ} {e : ε} {k : κ} :
    (step key start update st e).opened.get k = none ↔
      st.opened.get k = none ∧ ((start e).isSome → key e ≠ k) := by
  rw [Dictionary.get_eq_none, Dictionary.get_eq_none]
  unfold step
  cases hstart : start e with
  | none =>
    simp only [Prod.forall, Dictionary.mem_modify, Option.isSome_none, Bool.false_eq_true,
      false_implies, and_true, forall_exists_index, and_imp]
    exact ⟨fun h k' s hmem => h k' _ s hmem rfl, fun h k' _ s hmem _ => h k' s hmem⟩
  | some s =>
    dsimp only
    rw [Dictionary.rows_set Dictionary.get_remove]
    simp only [List.mem_append, Dictionary.mem_remove, List.mem_singleton, Option.isSome_some,
      true_implies]
    constructor
    · intro h
      refine ⟨fun row hrow hkey => ?_, h _ (Or.inr rfl)⟩
      by_cases hk : row.1 = key e
      · exact h _ (Or.inr rfl) (hk.symm.trans hkey)
      · exact h row (Or.inl ⟨hrow, hk⟩) hkey
    · rintro ⟨hrows, hne⟩ row (⟨hrow, -⟩ | rfl)
      · exact hrows row hrow
      · exact hne

/-- What holds at the start and is kept by every update holds of every session. -/
theorem forall_run {P : σ → Prop} {st : State κ σ} {es : List ε} (hst : ∀ s ∈ st.all, P s)
    (hstart : ∀ e s, start e = some s → P s) (hupdate : ∀ e s, P s → P (update e s)) :
    ∀ s ∈ (run key start update st es).all, P s := by
  have hsession : ∀ k es s, P s → P (session key start update k s es) := by
    intro k es s hs
    rw [session_eq_foldl]
    exact List.foldlRecOn _ _ hs fun s hs e _ => hupdate e s hs
  intro s hs
  rw [(all_run st es).mem_iff, State.finish, List.append_assoc, List.mem_append,
    List.mem_append] at hs
  rcases hs with hs | hs | hs
  · exact hst s (List.mem_append_left _ hs)
  · obtain ⟨row, hrow, rfl⟩ := List.mem_map.mp hs
    exact hsession _ _ _ (hst row.2 (List.mem_append_right _ (List.mem_map_of_mem hrow)))
  · induction es with
    | nil => cases hs
    | cons e es ih =>
      unfold sessions at hs
      cases he : start e with
      | none =>
        rw [he] at hs
        exact ih hs
      | some s' =>
        rw [he] at hs
        rcases List.mem_cons.mp hs with rfl | hs
        · exact hsession _ _ _ (hstart e s' he)
        · exact ih hs

end Sessions
