import Mathlib.Tactic
import TaskQueue.Proofs.RetriedRun
import TaskQueue.Proofs.StoreAgreement

/-!
# What becomes of an accepted retry

The task of a run is put back into the queue while the run is going on.  In both stores it stays
queued until somebody takes it, exactly if the run does not write its result any more; and it stays
so however the run goes on, exactly if the run has nothing left to write.
-/

namespace TaskQueue.Runner

open Store (Event Memory Moment Request Row Step Table View firstMoment)

variable {σ ρ ω : Type}

def Scene.retried (perform : σ → Moment → (r : Request) → Step σ r.Answer) (s : Scene σ)
    (moment : Moment) (id : TaskId) : Scene σ :=
  { s with store := (perform s.store moment (.retry id)).store }

/-- A run of a claimed task that has come to a stage, among the requests of others, when a retry of
its task is accepted. -/
structure Retried (V : View σ ρ ω) (perform : σ → Moment → (r : Request) → Step σ r.Answer)
    (Inv : σ → Prop) (config : Config) (id : TaskId) (moment : Moment) (s : Scene σ) : Prop where
  begun : ∃ s₀ task l, Inv s₀.store ∧ s₀.stage = some (.starting task) ∧ task.id = id ∧
    Path perform V config id s₀ l s
  inProgress : ∃ stage, s.stage = some stage
  accepted : (perform s.store moment (.retry id)).result = (.ok true : Except Fault Bool)

/-- When an accepted retry is kept; a store is ready if it can take a result of the task. -/
structure RetryFate (V : View σ ρ ω) (perform : σ → Moment → (r : Request) → Step σ r.Answer)
    (Inv : σ → Prop) (Slips : σ → Moment → Request → Prop) (Ready : TaskId → σ → Prop)
    (config : Config) : Prop where
  /-- Until others release the task it stays queued exactly if the run does not write its result. -/
  stays_iff : ∀ id moment s l t, Retried V perform Inv config id moment s →
    Path perform V config id (s.retried perform moment id) l t →
    (∀ d ∈ l, ¬Releases Slips id d) → (Stays V id l ↔ ∀ d ∈ l, ¬FinalWrite id d)
  /-- It stays so in every interleaving exactly if the run has nothing left to write. -/
  always_iff : ∀ id moment s, Retried V perform Inv config id moment s →
    Ready id (s.retried perform moment id).store →
    ((∀ l t, Path perform V config id (s.retried perform moment id) l t →
      (∀ d ∈ l, ¬Releases Slips id d) → Stays V id l) ↔ NothingLeft s)

variable {V : View σ ρ ω} {perform : σ → Moment → (r : Request) → Step σ r.Answer}
  {Inv : σ → Prop} {Slips : σ → Moment → Request → Prop} {Ready : TaskId → σ → Prop}
  {config : Config}

theorem not_releases_of_own {id : TaskId} {l : List (Deed σ)}
    (hown : ∀ d ∈ l, ∃ event, d = .own event) : ∀ d ∈ l, ¬Releases Slips id d := by
  rintro d hd ⟨e, hother, -⟩
  obtain ⟨event, hevent⟩ := hown d hd
  rw [hevent] at hother
  cases hother

theorem retryFate_of_behaves (hbehaves : V.Behaves perform Inv Slips)
    (hquiet : ∀ s moment r, IsOwn r → ¬Slips s moment r)
    (haccepts : ∀ store moment id,
      (perform store moment (.retry id)).result = (.ok true : Except Fault Bool) →
      Ready id (perform store moment (.retry id)).store →
      Accepts perform id (perform store moment (.retry id)).store) :
    RetryFate V perform Inv Slips Ready config := by
  have hstays : ∀ id moment s l t, Retried V perform Inv config id moment s →
      Path perform V config id (s.retried perform moment id) l t →
      (∀ d ∈ l, ¬Releases Slips id d) → (Stays V id l ↔ ∀ d ∈ l, ¬FinalWrite id d) := by
    intro id moment s l t hretried hpath hrelease
    obtain ⟨s₀, task, l₀, hinv₀, -, -, hpath₀⟩ := hretried.begun
    have hinv := inv_of_path hbehaves hinv₀ hpath₀
    obtain ⟨hinv', hkept⟩ := kept_of_retry hbehaves hinv hretried.accepted
    exact stays_iff hbehaves hquiet hinv' hkept hpath hrelease
  constructor
  · exact hstays
  · intro id moment s hretried hready
    constructor
    · intro halways
      by_contra hleft
      -- A run that has something left may go on alone until it has written it.
      obtain ⟨stage, hstage⟩ := hretried.inProgress
      obtain ⟨s₀, task, l₀, hinv₀, hstart, htask, hpath₀⟩ := hretried.begun
      have hof := isOf_of_path hpath₀ (fun stage hs => by
        rw [hstart] at hs
        cases hs
        exact htask) stage hstage
      have hwrite : CanWrite perform V config id (s.retried perform moment id) :=
        canWrite_of_left (haccepts s.store moment id hretried.accepted hready) hstage hof hleft
      obtain ⟨l, t, hpath, hown, d, hd, hfinal⟩ := hwrite
      have hrelease : ∀ d ∈ l, ¬Releases Slips id d := not_releases_of_own hown
      exact (hstays id moment s l t hretried hpath hrelease).1 (halways l t hpath hrelease) d hd
        hfinal
    · intro hleft l t hpath hrelease
      have hleft' : NothingLeft (s.retried perform moment id) := hleft
      exact (hstays id moment s l t hretried hpath hrelease).2 (hleft'.path hpath)

/-! ## The two stores -/

theorem not_slips_memory (m : Memory) {r : Request} (hown : IsOwn r) : ¬m.Slips r := by
  intro hslips
  cases r with
  | retry id => exact hown
  | _ => exact hslips

theorem not_slips_table (t : Table) (moment : Moment) {r : Request} (hown : IsOwn r) :
    ¬t.Slips moment r := by
  intro hslips
  cases r with
  | claim limit time => exact hown
  | append id lines window => exact hown
  | _ => exact hslips

theorem store_of_retry {m : Memory} {moment : Moment} {id : TaskId}
    (hretry : (m.retry moment id).result = .ok true) :
    m.poisoned = false ∧ ∃ t u, m.find? id = some t ∧ u.id = id ∧
      (m.retry moment id).store = m.replace u := by
  unfold Memory.retry Memory.withTask at hretry ⊢
  cases hopen : m.poisoned with
  | true =>
      unfold Memory.locked at hretry
      rw [if_pos hopen] at hretry
      cases hretry
  | false =>
      rw [Memory.locked_open hopen] at hretry ⊢
      refine ⟨rfl, ?_⟩
      cases hfind : m.find? id with
      | none =>
          rw [hfind] at hretry
          cases hretry
      | some t =>
          rw [hfind] at hretry
          have hid := (Memory.mem_of_find hfind).2
          simp only at hretry ⊢
          split at hretry
          · rename_i hretryable
            rw [if_pos hretryable]
            split at hretry
            · rename_i hfits
              rw [if_pos hfits]
              refine ⟨t, _, rfl, ?_, rfl⟩
              exact hid
            · cases hretry
          · cases hretry

theorem accepts_memory {m : Memory} {moment : Moment} {id : TaskId}
    (hretry : (m.retry moment id).result = .ok true) :
    Accepts Memory.perform id (m.retry moment id).store := by
  obtain ⟨hopen, t, u, hfind, hid, hstore⟩ := store_of_retry hretry
  have hafter : (m.replace u).find? id = some u := Memory.find_replace_self hfind hid
  intro moment' p status hterminal
  rw [hstore]
  show ((m.replace u).finalize moment' id p status).result = _
  unfold Memory.finalize Memory.withTask
  rw [if_pos hterminal, @Memory.locked_open (m.replace u) hopen, hafter]
  rfl

def ResultReadable (id : TaskId) (t : Table) : Prop :=
  ∀ row, Table.view.find? t id = some row → (Row.resultOf? row.result).isSome = true

theorem rows_of_retry {t : Table} {moment : Moment} {id : TaskId}
    (hretry : (t.retry moment id).result = .ok true) :
    ∃ rows a b, Table.findRow? rows id.text = some a ∧ b.id = id.text ∧
      (t.retry moment id).store = Table.replaceRow rows b := by
  unfold Table.retry Table.withRows at hretry ⊢
  cases hrows : t.rows with
  | none =>
      rw [hrows] at hretry
      cases hretry
  | some rows =>
      rw [hrows] at hretry
      simp only at hretry ⊢
      cases hfind : Table.findRow? rows id.text with
      | none =>
          rw [hfind] at hretry
          cases hretry
      | some a =>
          rw [hfind] at hretry
          have hid := (Table.id_of_find hfind).2
          simp only at hretry ⊢
          split at hretry
          · cases hretry
          · rename_i status hstatus
            split at hretry
            · rename_i hretryable
              rw [if_pos hretryable]
              split at hretry
              · cases hretry
              · refine ⟨rows, a, _, hfind, ?_, rfl⟩
                exact hid
            · cases hretry

/-- After an accepted retry a table takes a result of the task if it can read the one that it
has. -/
theorem accepts_table {t : Table} {moment : Moment} {id : TaskId}
    (hretry : (t.retry moment id).result = .ok true)
    (hready : ResultReadable id (t.retry moment id).store) :
    Accepts Table.perform id (t.retry moment id).store := by
  obtain ⟨rows, a, b, hfind, hid, hstore⟩ := rows_of_retry hretry
  rw [hstore] at hready ⊢
  have hafter : Table.view.find? (Table.replaceRow rows b) id = some b :=
    Table.find_replaceRow_self hfind hid
  obtain ⟨result, hresult⟩ := Option.isSome_iff_exists.1 (hready b hafter)
  intro moment' p status hterminal
  show ((Table.replaceRow rows b).finalize moment' id p status).result = _
  have hrow : Table.findRow? (rows.map fun s => if s.id = b.id then b else s) id.text = some b :=
    hafter
  unfold Table.finalize Table.modify Table.withRows Table.replaceRow
  rw [if_pos hterminal]
  simp only [hrow, hresult]
  rfl

/-- What becomes of an accepted retry in both stores. -/
theorem retryFate (config : Config) :
    RetryFate Memory.view Memory.perform Memory.Unique (fun m _ r => m.Slips r) (fun _ _ => True)
        config ∧
      RetryFate Table.view Table.perform Table.Unique Table.Slips ResultReadable config := by
  constructor
  · refine retryFate_of_behaves Memory.behaves (fun m _ r hown => not_slips_memory m hown) ?_
    intro m moment id hretry _
    exact accepts_memory hretry
  · refine retryFate_of_behaves Table.behaves (fun t moment r hown => not_slips_table t moment hown)
      ?_
    intro t moment id hretry hready
    exact accepts_table hretry hready

/-- A task that is claimed, and paused while it is executed. -/
def pausedScene : Scene Memory where
  store := Store.final Memory.perform .empty
    [(firstMoment, .enqueue ⟨none, "push", .object []⟩),
     (firstMoment, .claim 10 ⟨⟨0, 0⟩, 0⟩),
     (firstMoment, .pause ⟨1⟩)]
  stage := some (.executing (Task.ofNew ⟨none, "push", .object []⟩ ⟨1⟩ firstMoment.created))
  watch := .start ⟨1⟩

/-- The retry of the task is accepted, and the run makes its write all the same. -/
theorem retry_lost :
    (pausedScene.store.retry firstMoment ⟨1⟩).result = .ok true ∧
      ∃ l t, Path Memory.perform Memory.view .standard ⟨1⟩
          (pausedScene.retried Memory.perform firstMoment ⟨1⟩) l t ∧
        (∀ d ∈ l, ¬Releases (fun m _ r => Memory.Slips m r) ⟨1⟩ d) ∧
          ¬Stays Memory.view ⟨1⟩ l := by
  refine ⟨by decide, ?_⟩
  have hretry : (pausedScene.store.retry firstMoment ⟨1⟩).result = .ok true := by decide
  have hunique : pausedScene.store.Unique := by
    unfold Memory.Unique
    decide
  obtain ⟨hinv, hkept⟩ := kept_of_retry Memory.behaves hunique hretry
  have hwrite : CanWrite Memory.perform Memory.view .standard ⟨1⟩
      (pausedScene.retried Memory.perform firstMoment ⟨1⟩) :=
    canWrite_executing (accepts_memory hretry) rfl rfl (by decide)
  obtain ⟨l, t, hpath, hown, d, hd, hfinal⟩ := hwrite
  have hrelease : ∀ d ∈ l, ¬Releases (fun m _ r => Memory.Slips m r) ⟨1⟩ d :=
    not_releases_of_own hown
  refine ⟨l, t, hpath, hrelease, ?_⟩
  intro hstays
  exact (stays_iff Memory.behaves (fun m _ r hown => not_slips_memory m hown) hinv hkept hpath
    hrelease).1 hstays d hd hfinal

end TaskQueue.Runner
