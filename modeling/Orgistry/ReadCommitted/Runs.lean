import Orgistry.ReadCommitted.Rules

/-!
# Runs and their histories

Induction along the committed databases of a run, neighbouring databases, and
scripted runs that a kernel can replay.
-/

namespace Orgistry.ReadCommitted

variable {S : Schema}

/-- `before` and `after` are neighbours among the committed databases. -/
def History.Adjacent (w : History S) (before after : Database S) : Prop :=
  ∃ newer older, w.timeline = newer ++ after :: before :: older

theorem History.adjacent_push_iff {w : History S} {db before after : Database S} :
    (w.push db).Adjacent before after ↔
      (before = w.now ∧ after = db) ∨ w.Adjacent before after := by
  constructor
  · rintro ⟨newer, older, hsplit⟩
    rw [timeline_push] at hsplit
    cases newer with
    | nil =>
        simp only [List.nil_append, List.cons.injEq, timeline] at hsplit
        exact .inl ⟨hsplit.2.1.symm, hsplit.1.symm⟩
    | cons head newer =>
        rw [List.cons_append, List.cons.injEq] at hsplit
        exact .inr ⟨newer, older, hsplit.2⟩
  · rintro (⟨rfl, rfl⟩ | ⟨newer, older, hsplit⟩)
    · exact ⟨[], w.past, rfl⟩
    · exact ⟨db :: newer, older, by rw [timeline_push, hsplit]; rfl⟩

theorem History.not_adjacent_initial {db before after : Database S} :
    ¬(⟨db, []⟩ : History S).Adjacent before after := by
  rintro ⟨newer, older, hsplit⟩
  have hlength := congrArg List.length hsplit
  simp only [timeline, List.length_append, List.length_cons, List.length_nil] at hlength
  omega

/-- The neighbours of a history, listed. -/
theorem History.mem_zip_of_adjacent {w : History S} {before after : Database S}
    (h : w.Adjacent before after) : (after, before) ∈ w.timeline.zip w.past := by
  obtain ⟨db, past⟩ := w
  induction past generalizing db with
  | nil => exact absurd h not_adjacent_initial
  | cons head past ih =>
      have hzip : (⟨db, head :: past⟩ : History S).timeline.zip (head :: past) =
          (db, head) :: (⟨head, past⟩ : History S).timeline.zip past := rfl
      rw [hzip, List.mem_cons]
      rcases (adjacent_push_iff (w := ⟨head, past⟩)).mp h with ⟨rfl, rfl⟩ | hrest
      · exact .inl rfl
      · exact .inr (ih head hrest)

/-- The databases before and after each step of a run, the latest step first. -/
def History.steps (w : History S) : List (Database S × Database S) := w.past.zip w.timeline

@[simp]
theorem History.steps_push (w : History S) (db : Database S) :
    (w.push db).steps = (w.now, db) :: w.steps := rfl

/-- No two steps of the run are such events. -/
def History.AtMostOnce (w : History S) (E : Database S → Database S → Prop) : Prop :=
  w.steps.Pairwise fun later earlier => ¬(E later.1 later.2 ∧ E earlier.1 earlier.2)

/-- After an event of the first kind there is none of the second. -/
def History.NeverAfter (w : History S) (E E' : Database S → Database S → Prop) : Prop :=
  w.steps.Pairwise fun later earlier => ¬(E earlier.1 earlier.2 ∧ E' later.1 later.2)

/-- The first event leaves a mark `M` for good, and the second happens only where
it is missing. -/
theorem History.neverAfter {w : History S} {E E' : Database S → Database S → Prop}
    {M : Database S → Prop} (hafter : ∀ step ∈ w.steps, E step.1 step.2 → M step.2)
    (hbefore : ∀ step ∈ w.steps, E' step.1 step.2 → ¬M step.1)
    (hkept : ∀ step ∈ w.steps, M step.1 → M step.2) : w.NeverAfter E E' := by
  obtain ⟨now, past⟩ := w
  suffices hboth : (⟨now, past⟩ : History S).NeverAfter E E' ∧
      ∀ step ∈ (⟨now, past⟩ : History S).steps, E step.1 step.2 → M now from hboth.1
  induction past generalizing now with
  | nil => exact ⟨List.Pairwise.nil, fun step hstep => by cases hstep⟩
  | cons before past ih =>
      have hsteps : (⟨now, before :: past⟩ : History S).steps =
          (before, now) :: (⟨before, past⟩ : History S).steps := rfl
      rw [hsteps] at hafter hbefore hkept
      obtain ⟨hnever, hmarked⟩ := ih before
        (fun step hstep => hafter step (List.mem_cons_of_mem _ hstep))
        (fun step hstep => hbefore step (List.mem_cons_of_mem _ hstep))
        (fun step hstep => hkept step (List.mem_cons_of_mem _ hstep))
      rw [NeverAfter, hsteps, List.pairwise_cons]
      refine ⟨⟨fun step hstep hboth => ?_, hnever⟩, fun step hstep hE => ?_⟩
      · exact hbefore _ List.mem_cons_self hboth.2 (hmarked step hstep hboth.1)
      · rcases List.mem_cons.mp hstep with rfl | hstep
        · exact hafter _ List.mem_cons_self hE
        · exact hkept _ List.mem_cons_self (hmarked step hstep hE)

theorem History.AtMostOnce.eq {w : History S} {E : Database S → Database S → Prop}
    (h : w.AtMostOnce E) {step step' : Database S × Database S} (hstep : step ∈ w.steps)
    (hstep' : step' ∈ w.steps) (hE : E step.1 step.2) (hE' : E step'.1 step'.2) :
    step = step' := by
  let R (p q : Database S × Database S) : Prop := E p.1 p.2 → E q.1 q.2 → p = q
  have hsame : w.steps.Pairwise R := h.imp fun hnot hp hq => absurd ⟨hp, hq⟩ hnot
  have hflip : w.steps.Pairwise (flip R) := hsame.imp fun hR hq hp => (hR hp hq).symm
  exact List.Pairwise.forall_of_forall_of_flip (fun _ _ _ _ => rfl) hsame hflip hstep hstep' hE hE'

section Histories

variable {G : Tx S → Database S → Prop} {Init : Database S → Prop} {w : History S}

theorem Trace.induction {P : History S → Prop} (h : Trace G Init w)
    (hinit : ∀ db, Init db → P ⟨db, []⟩)
    (htick : ∀ w n, P w → P (w.push (w.now.advance n)))
    (hcommit : ∀ w tx, Trace G Init w → tx.Sound w.now → G tx w.now → P w →
      P (w.push (w.now.apply tx.writes))) : P w := by
  obtain ⟨db, hdb, hmoves⟩ := h
  induction hmoves with
  | refl => exact hinit db hdb
  | tick n _ ih => exact htick _ n ih
  | commit tx hmoves hsound hG ih => exact hcommit _ tx ⟨db, hdb, hmoves⟩ hsound hG ih

/-- The committed rows of a run stay consistent. -/
theorem Trace.consistent (hinit : ∀ db, Init db → Consistent db.tables)
    (h : Trace G Init w) : Consistent w.now.tables := by
  refine h.induction (P := fun w => Consistent w.now.tables) hinit (fun _ _ hw => hw) ?_
  intro w tx _ hsound _ _
  exact hsound.consistent _ tx.current_mem_layers

/-- What holds of every tick and of every commit holds of every step of a run. -/
theorem Trace.forall_steps {P : Database S → Database S → Prop} (h : Trace G Init w)
    (htick : ∀ w n, Trace G Init w → P w.now (w.now.advance n))
    (hcommit : ∀ w tx, Trace G Init w → tx.Sound w.now → G tx w.now →
      P w.now (w.now.apply tx.writes)) : ∀ step ∈ w.steps, P step.1 step.2 := by
  suffices hboth : Trace G Init w ∧ ∀ step ∈ w.steps, P step.1 step.2 from hboth.2
  refine h.induction (P := fun w => Trace G Init w ∧ ∀ step ∈ w.steps, P step.1 step.2) ?_ ?_ ?_
  · exact fun db hdb => ⟨⟨db, hdb, .refl⟩, fun step hstep => by cases hstep⟩
  · rintro w n ⟨htrace, hw⟩
    refine ⟨htrace.extend (.tick n .refl), fun step hstep => ?_⟩
    rcases List.mem_cons.mp hstep with rfl | hstep
    · exact htick w n htrace
    · exact hw step hstep
  · rintro w tx htrace hsound hG ⟨-, hw⟩
    refine ⟨htrace.extend (.commit tx .refl hsound hG), fun step hstep => ?_⟩
    rcases List.mem_cons.mp hstep with rfl | hstep
    · exact hcommit w tx htrace hsound hG
    · exact hw step hstep

/-- Each step of a run ends in a consistent database. -/
theorem Trace.consistent_steps (hinit : ∀ db, Init db → Consistent db.tables)
    (h : Trace G Init w) : ∀ step ∈ w.steps, Consistent step.2.tables :=
  h.forall_steps (P := fun _ after => Consistent after.tables)
    (fun _ _ htrace => htrace.consistent hinit)
    fun _ tx _ hsound _ => hsound.consistent _ tx.current_mem_layers

/-- An event that leaves a mark `M` for good, and that only happens where it is
missing, happens at most once. -/
theorem Trace.atMostOnce {E : Database S → Database S → Prop} {M : Database S → Prop}
    (h : Trace G Init w) (hbefore : ∀ before after, E before after → ¬M before)
    (hafter : ∀ before after, E before after → M after)
    (htick : ∀ db n, M db → M (db.advance n))
    (hcommit : ∀ w tx, Trace G Init w → tx.Sound w.now → G tx w.now → M w.now →
      M (w.now.apply tx.writes)) : w.AtMostOnce E := by
  have hkept : ∀ step ∈ w.steps, M step.1 → M step.2 :=
    h.forall_steps (P := fun before after => M before → M after)
      (fun w n _ => htick w.now n) hcommit
  have hnever : w.NeverAfter E E :=
    History.neverAfter (fun step _ => hafter _ _) (fun step _ => hbefore _ _) hkept
  exact hnever.imp fun hnot hboth => hnot hboth.symm

/-- What a run has passed through is a run itself. -/
theorem Trace.of_extends {v : History S} (h : Trace G Init w) (hwv : w.Extends v) :
    Trace G Init v ∧ Moves G v w := by
  obtain ⟨db, hdb, hmoves⟩ := h
  induction hmoves with
  | refl =>
      obtain rfl : v = ⟨db, []⟩ := by
        rcases List.suffix_cons_iff.mp hwv with heq | hnil
        · exact History.timeline_injective heq
        · simp [History.timeline] at hnil
      exact ⟨⟨db, hdb, .refl⟩, .refl⟩
  | tick n hmoves ih =>
      rcases History.extends_push_iff.mp hwv with rfl | hwv
      · exact ⟨⟨db, hdb, .tick n hmoves⟩, .refl⟩
      · exact ⟨(ih hwv).1, .tick n (ih hwv).2⟩
  | commit tx hmoves hsound hG ih =>
      rcases History.extends_push_iff.mp hwv with rfl | hwv
      · exact ⟨⟨db, hdb, .commit tx hmoves hsound hG⟩, .refl⟩
      · exact ⟨(ih hwv).1, .commit tx (ih hwv).2 hsound hG⟩

end Histories

namespace State

variable {Request Answer : Type} {code : ℕ → Request → Prog S Answer}
  {ok : Tx S → Database S → Prop} {s s' : State S Request Answer}

/-- A step only adds to the history. -/
theorem step_extends {a : Action S Request} (h : step code s a = some s') :
    s'.history.Extends s.history := by
  cases a with
  | start r =>
      cases h
      exact .refl _
  | exec i picks =>
      obtain ⟨th, o, -, -, rfl⟩ := step_exec h
      cases o.committed with
      | none => exact .refl _
      | some db => exact (History.Extends.refl _).push db
  | abort i e =>
      obtain ⟨th, -, -, rfl⟩ := step_abort h
      exact .refl _
  | tick n =>
      cases h
      exact (History.Extends.refl _).push _

theorem Later.extends (h : Later code ok s s') : s'.history.Extends s.history := by
  induction h with
  | refl => exact .refl _
  | step _ hstep _ ih => exact (step_extends hstep).trans ih

/-- A thread after a step was there before, or has just arrived. -/
theorem step_born {a : Action S Request} (h : step code s a = some s') {j : ℕ}
    {th' : Thread S Request Answer} (hth' : s'.threads[j]? = some th') :
    (∃ th, s.threads[j]? = some th ∧ th'.born = th.born) ∨ th'.born = s.history := by
  -- a step of thread `i` changes at most its program and its transaction
  have hset : ∀ {i : ℕ} {th : Thread S Request Answer} {prog : Prog S Answer} {tx : Tx S},
      s.threads[i]? = some th →
      (s.threads.set i { th with prog, tx })[j]? = some th' →
      ∃ th, s.threads[j]? = some th ∧ th'.born = th.born := by
    intro i th prog tx hth hj
    rw [List.getElem?_set] at hj
    split at hj
    · next hij =>
        split at hj
        · cases hj
          exact ⟨th, hij ▸ hth, rfl⟩
        · cases hj
    · exact ⟨th', hj, rfl⟩
  cases a with
  | start r =>
      cases h
      rw [List.getElem?_append] at hth'
      split at hth'
      · exact .inl ⟨th', hth', rfl⟩
      · rw [List.getElem?_singleton] at hth'
        split at hth'
        · cases hth'
          exact .inr rfl
        · cases hth'
  | exec i picks =>
      obtain ⟨th, o, hth, -, rfl⟩ := step_exec h
      exact .inl (hset hth hth')
  | abort i e =>
      obtain ⟨th, hth, -, rfl⟩ := step_abort h
      exact .inl (hset hth hth')
  | tick n =>
      cases h
      exact .inl ⟨th', hth', rfl⟩

/-- Threads that are new in a later state have arrived since. -/
theorem Later.born (h : Later code ok s s') {j : ℕ} {th : Thread S Request Answer}
    (hth : s'.threads[j]? = some th) (hnew : s.threads.length ≤ j) :
    th.born.Extends s.history := by
  induction h generalizing th with
  | refl =>
      rw [List.getElem?_eq_none hnew] at hth
      cases hth
  | step hlater hstep _ ih =>
      rcases step_born hstep hth with ⟨th₀, hth₀, hborn⟩ | hborn
      · exact hborn ▸ ih hth₀
      · exact hborn ▸ hlater.extends

/-- Thread `i` was started for `r` and has answered `a`. -/
def Answered (s : State S Request Answer) (i : ℕ) (r : Request) (a : Answer) : Prop :=
  ∃ th, s.threads[i]? = some th ∧ th.request = r ∧ th.prog = .ret a

/-- What an answer promises, it promises of the history that it was given in. -/
theorem Answered.post {G : Tx S → Database S → Prop} {Init : Database S → Prop}
    {Post : ℕ → Request → History S → Answer → History S → Prop}
    (hinit : ∀ db, Init db → Consistent db.tables)
    (hsafe : ∀ i r w, Trace G Init w →
      Safe G (code i r) (fun a _ w' => Post i r w a w') .begin w)
    (h : Reach code Init ok s) {i : ℕ} {r : Request} {a : Answer} (ha : s.Answered i r a) :
    ∃ th w, s.threads[i]? = some th ∧ Moves G th.born w ∧ Moves G w s.history ∧
      Post i r th.born a w := by
  obtain ⟨⟨request, born, prog, tx⟩, hth, rfl, rfl⟩ := ha
  obtain ⟨w, hborn, hnow, hpost⟩ := (h.adequate hinit hsafe).2 i _ hth
  exact ⟨_, w, hth, hborn, hnow, hpost⟩

end State

/-! ## Scripted runs -/

/-- What the engine may pick for the next statement: the rows of a locking
statement in table order, and `fresh` for an insert. -/
def Prog.picks {α : Type} (db : Database S) (tx : Tx S) (fresh : S.Id) : Prog S α → List S.Id
  | .lock t p _ _ => ((db.view tx.writes t).rows.filter p).map S.id
  | .insert _ _ _ _ => [fresh]
  | _ => []

/-- A line of a script: a request arrives, the clock advances, or thread `i`
takes `n` steps or as many as it has left, inserting rows under the key
`fresh`. -/
inductive Line (S : Schema) (Request : Type)
  | start (request : Request)
  | tick (n : ℕ)
  | steps (i n : ℕ) (fresh : S.Id)

namespace State

variable {Request Answer : Type} (code : ℕ → Request → Prog S Answer)
  (ok : Tx S → Database S → Prop) [∀ tx db, Decidable (ok tx db)]

/-- `Permits`, evaluated. -/
def permits (s : State S Request Answer) : Action S Request → Bool
  | .exec i _ =>
      match s.threads[i]? with
      | some ⟨_, _, .commit _, tx⟩ => decide (ok tx s.history.now)
      | _ => true
  | _ => true

/-- One step, if `ok` allows it. -/
def stepIf (s : State S Request Answer) (a : Action S Request) :
    Option (State S Request Answer) :=
  if permits ok s a then step code s a else none

def replayThread (i : ℕ) (fresh : S.Id) :
    ℕ → State S Request Answer → Option (State S Request Answer)
  | 0, s => some s
  | n + 1, s =>
      match s.threads[i]? with
      | none => none
      | some th =>
          if th.prog.finished then some s
          else (stepIf code ok s (.exec i (th.prog.picks s.history.now th.tx fresh))).bind
            (replayThread i fresh n)

/-- A scripted run in which every commit has to be `ok`. -/
def replay : List (Line S Request) → State S Request Answer → Option (State S Request Answer)
  | [], s => some s
  | .start r :: script, s => (stepIf code ok s (.start r)).bind (replay script)
  | .tick n :: script, s => (stepIf code ok s (.tick n)).bind (replay script)
  | .steps i n fresh :: script, s => (replayThread code ok i fresh n s).bind (replay script)

variable {code ok} {s s' : State S Request Answer}

theorem permits_of_permits {a : Action S Request} (h : permits ok s a) : Permits ok s a := by
  cases a with
  | exec i picks =>
      intro th hth next hnext
      obtain ⟨request, born, prog, tx⟩ := th
      dsimp only at hnext
      subst hnext
      simpa [permits, hth] using h
  | start r => trivial
  | abort i e => trivial
  | tick n => trivial

theorem Later.of_stepIf {a : Action S Request} (h : stepIf code ok s a = some s') :
    Later code ok s s' := by
  unfold stepIf at h
  split at h
  · next hpermits => exact .step .refl h (permits_of_permits hpermits)
  · cases h

/-- A thread that is replayed makes steps of the system. -/
theorem Later.of_replayThread {i n : ℕ} {fresh : S.Id}
    (h : replayThread code ok i fresh n s = some s') : Later code ok s s' := by
  induction n generalizing s with
  | zero =>
      cases h
      exact .refl
  | succ n ih =>
      rw [replayThread] at h
      split at h
      · cases h
      · split at h
        · cases h
          exact .refl
        · obtain ⟨mid, hstep, hrest⟩ := Option.bind_eq_some_iff.mp h
          exact (Later.of_stepIf hstep).trans (ih hrest)

/-- A replayed script is a run. -/
theorem Later.of_replay {script : List (Line S Request)}
    (h : replay code ok script s = some s') : Later code ok s s' := by
  induction script generalizing s with
  | nil =>
      cases h
      exact .refl
  | cons line script ih =>
      cases line with
      | start r =>
          obtain ⟨mid, hstep, hrest⟩ := Option.bind_eq_some_iff.mp h
          exact (Later.of_stepIf hstep).trans (ih hrest)
      | tick n =>
          obtain ⟨mid, hstep, hrest⟩ := Option.bind_eq_some_iff.mp h
          exact (Later.of_stepIf hstep).trans (ih hrest)
      | steps i n fresh =>
          obtain ⟨mid, hsteps, hrest⟩ := Option.bind_eq_some_iff.mp h
          exact (Later.of_replayThread hsteps).trans (ih hrest)

end State

instance (tx : Tx S) (db : Database S) : Decidable (State.Always tx db) := .isTrue trivial

/-- Consistency of finitely many rows, evaluated. -/
theorem Consistent.of_rows {tables : (t : S.Table) → Relation S t}
    (hunique : ∀ t, ∀ row ∈ (tables t).rows, ∀ row' ∈ (tables t).rows,
      S.id row ≠ S.id row' → S.conflict row row' = false)
    (hreferential : ∀ t, ∀ row ∈ (tables t).rows, ∀ ref ∈ S.refs row,
      (tables ref.1).get ref.2 ≠ none) : Consistent tables where
  unique hrow hrow' hne := by
    refine hunique _ _ (Relation.mem_of_get hrow) _ (Relation.mem_of_get hrow') ?_
    rwa [Relation.id_of_get hrow, Relation.id_of_get hrow']
  referential hrow := hreferential _ _ (Relation.mem_of_get hrow)

end Orgistry.ReadCommitted
