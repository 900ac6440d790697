import Mathlib.Data.Fintype.EquivFin
import Mathlib.Order.WellFounded

/-! Searches that follow every link of a place and agree on what the links lead to. A search
fails where the links lead to different results, and where no link leads to one it fails as
the first link does.
-/

namespace N8n

inductive Visit (Place X E : Type*) where
  | found (result : X)
  | failed (error : E)
  | onward (next : List Place)

/-- A search, with the results that count as such and the errors that it may fail with. -/
structure BackwardSearch (Place X E : Type*) where
  visit : Place → Visit Place X E
  noLinks : Place → E
  ambiguous : Place → E
  valid : X → Prop
  proper : E → Prop

namespace BackwardSearch

variable {Place X E : Type*} [DecidableEq X]

def consensus (noLinks ambiguous : E) (results : List (Except E X)) : Except E X :=
  match results.filterMap Except.toOption with
  | [] =>
      match results.head? with
      | some (.error error) => .error error
      | _ => .error noLinks
  | first :: rest => if rest.any (· ≠ first) then .error ambiguous else .ok first

variable {noLinks ambiguous : E} {results : List (Except E X)}

omit [DecidableEq X] in
variable {result : X}

theorem mem_filterMap_toOption
    : result ∈ results.filterMap Except.toOption ↔ .ok result ∈ results := by
  rw [List.mem_filterMap]
  constructor
  · rintro ⟨_ | found, member, same⟩
    · cases same
    · cases same
      exact member
  · intro member
    exact ⟨.ok result, member, rfl⟩

theorem consensus_eq_ok
    : consensus noLinks ambiguous results = .ok result
      ↔ .ok result ∈ results ∧ ∀ other, .ok other ∈ results → other = result := by
  simp only [← mem_filterMap_toOption]
  unfold consensus
  cases results.filterMap Except.toOption with
  | nil =>
      simp only [List.not_mem_nil, false_and, iff_false]
      split <;> simp
  | cons first rest =>
      by_cases differs : rest.any (· ≠ first)
      · simp only [differs, if_true, reduceCtorEq, false_iff, not_and]
        intro _ agree
        obtain ⟨other, member, distinct⟩ := List.any_eq_true.mp differs
        refine absurd ?_ (of_decide_eq_true distinct)
        rw [agree other (by simp [member]), agree first (by simp)]
      · simp only [differs, Except.ok.injEq, Bool.false_eq_true, if_false]
        simp only [List.any_eq_true, decide_eq_true_eq, not_exists, not_and, not_not] at differs
        constructor
        · rintro rfl
          refine ⟨by simp, ?_⟩
          intro other member
          rcases List.mem_cons.mp member with same | later
          · exact same
          · exact differs other later
        · rintro ⟨-, agree⟩
          exact agree first (by simp)

variable {error : E}

theorem consensus_eq_error (fails : consensus noLinks ambiguous results = .error error)
    : error = ambiguous ∨ results = [] ∧ error = noLinks ∨ .error error ∈ results := by
  unfold consensus at fails
  split at fails
  · next noneFound =>
      cases results with
      | nil => exact .inr (.inl ⟨rfl, (Except.error.inj fails).symm⟩)
      | cons first rest =>
          cases first with
          | error first =>
              obtain rfl : first = error := Except.error.inj fails
              exact .inr (.inr (by simp))
          | ok result => simp [Except.toOption] at noneFound
  · split at fails
    · exact .inl (Except.error.inj fails).symm
    · contradiction

/-- The result of a search from a place, unless the fuel runs out. -/
def trace (search : BackwardSearch Place X E) : Nat → Place → Option (Except E X)
  | 0, _ => none
  | fuel + 1, place =>
      match search.visit place with
      | .found result => some (.ok result)
      | .failed error => some (.error error)
      | .onward next =>
          (next.mapM (search.trace fuel)).map
            (consensus (search.noLinks place) (search.ambiguous place))

def Links (search : BackwardSearch Place X E) (place next : Place) : Prop :=
  ∃ links, search.visit place = .onward links ∧ next ∈ links

def Reaches (search : BackwardSearch Place X E) : Place → Place → Prop :=
  Relation.ReflTransGen search.Links

/-- Some chain of links leads from the place to the result, and it counts. -/
def Hits (search : BackwardSearch Place X E) (place : Place) (result : X) : Prop :=
  search.valid result ∧ ∃ last, search.Reaches place last ∧ search.visit last = .found result

/-- The chains that lead anywhere lead to this one result. -/
def HitsOnly (search : BackwardSearch Place X E) (place : Place) (result : X) : Prop :=
  search.Hits place result ∧ ∀ other, search.Hits place other → other = result

/-- Two chains lead to different results. -/
def HitsSeveral (search : BackwardSearch Place X E) (place : Place) : Prop :=
  ∃ first second, search.Hits place first ∧ search.Hits place second ∧ first ≠ second

variable {search : BackwardSearch Place X E} {place : Place} {fuel : Nat}

omit [DecidableEq X] in
variable {next : Place}

theorem hits_of_links (linked : search.Links place next) (hits : search.Hits next result)
    : search.Hits place result := by
  obtain ⟨isValid, last, reaches, found⟩ := hits
  exact ⟨isValid, last, reaches.head linked, found⟩

omit [DecidableEq X] in
theorem hits_found {other : X} (found : search.visit place = .found result)
    : search.Hits place other ↔ search.valid result ∧ other = result := by
  constructor
  · rintro ⟨isValid, last, reaches, isFound⟩
    rcases Relation.ReflTransGen.cases_head reaches with rfl | ⟨next, ⟨links, onward, -⟩, -⟩
    · cases found.symm.trans isFound
      exact ⟨isValid, rfl⟩
    · cases found.symm.trans onward
  · rintro ⟨isValid, rfl⟩
    exact ⟨isValid, place, .refl, found⟩

omit [DecidableEq X] in
theorem not_hits_failed (failed : search.visit place = .failed error)
    : ¬search.Hits place result := by
  rintro ⟨-, last, reaches, found⟩
  rcases Relation.ReflTransGen.cases_head reaches with rfl | ⟨next, ⟨links, onward, -⟩, -⟩
  · cases failed.symm.trans found
  · cases failed.symm.trans onward

omit [DecidableEq X] in
variable {links : List Place}

theorem hits_onward (onward : search.visit place = .onward links)
    : search.Hits place result ↔ ∃ next ∈ links, search.Hits next result := by
  constructor
  · rintro ⟨isValid, last, reaches, found⟩
    rcases Relation.ReflTransGen.cases_head reaches with rfl | ⟨next, ⟨_, isOnward, member⟩, rest⟩
    · cases onward.symm.trans found
    · cases onward.symm.trans isOnward
      exact ⟨next, member, isValid, last, rest, found⟩
  · rintro ⟨next, member, hits⟩
    exact hits_of_links ⟨links, onward, member⟩ hits

omit [DecidableEq X] in
/-- A place that a chain leads on from has one result, or several. -/
theorem hitsOnly_or_hitsSeveral (hits : search.Hits place result)
    : search.HitsOnly place result ∨ search.HitsSeveral place := by
  by_cases only : ∀ other, search.Hits place other → other = result
  · exact .inl ⟨hits, only⟩
  · push Not at only
    obtain ⟨other, hitsOther, differs⟩ := only
    exact .inr ⟨other, result, hitsOther, hits, differs⟩

omit [DecidableEq X] in
theorem reaches_of_links {last : Place} (linked : search.Links place next)
    (reaches : search.Reaches next last)
    : search.Reaches place last := reaches.head linked

section

variable {α β : Type*} {f g : α → Option β} {items : List α} {results : List β}

theorem mem_of_mapM (all : items.mapM f = some results)
    : (∀ result, result ∈ results ↔ ∃ item ∈ items, f item = some result)
      ∧ ∀ item ∈ items, ∃ result, f item = some result := by
  induction items generalizing results with
  | nil =>
      obtain rfl : [] = results := by simpa using all
      simp
  | cons first rest ih =>
      simp only [List.mapM_cons, Option.pure_def, Option.bind_eq_bind,
        Option.bind_eq_some_iff] at all
      obtain ⟨result, isResult, others, later, same⟩ := all
      cases same
      obtain ⟨mem, each⟩ := ih later
      simp only [List.mem_cons, exists_eq_or_imp, isResult, Option.some.injEq, mem,
        forall_eq_or_imp]
      refine ⟨?_, ⟨result, rfl⟩, each⟩
      intro other
      rw [eq_comm]

theorem exists_mapM (each : ∀ item ∈ items, ∃ result, f item = some result)
    : ∃ results, items.mapM f = some results := by
  induction items with
  | nil => exact ⟨[], rfl⟩
  | cons first rest ih =>
      obtain ⟨result, isResult⟩ := each first (by simp)
      obtain ⟨results, all⟩ := ih (fun item member => each item (by simp [member]))
      exact ⟨result :: results, by simp [isResult, all]⟩

theorem mapM_mono (all : items.mapM f = some results)
    (mono : ∀ item ∈ items, ∀ result, f item = some result → g item = some result)
    : items.mapM g = some results := by
  induction items generalizing results with
  | nil => exact all
  | cons first rest ih =>
      simp only [List.mapM_cons, Option.pure_def, Option.bind_eq_bind,
        Option.bind_eq_some_iff] at all ⊢
      obtain ⟨result, isResult, others, later, same⟩ := all
      exact ⟨result, mono first (by simp) result isResult, others,
        ih later (fun item member => mono item (by simp [member])), same⟩

end

variable {result : Except E X}

theorem trace_onward (onward : search.visit place = .onward links)
    : search.trace (fuel + 1) place = some result
      ↔ ∃ results, links.mapM (search.trace fuel) = some results
          ∧ consensus (search.noLinks place) (search.ambiguous place) results = result := by
  simp [trace, onward]

theorem trace_succ (ended : search.trace fuel place = some result)
    : search.trace (fuel + 1) place = some result := by
  induction fuel generalizing place result with
  | zero => contradiction
  | succ fuel ih =>
      cases visited : search.visit place with
      | onward links =>
          obtain ⟨results, all, agreed⟩ := (trace_onward visited).mp ended
          exact (trace_onward visited).mpr
            ⟨results, mapM_mono all (fun _ _ _ isResult => ih isResult), agreed⟩
      | _ => simpa [trace, visited] using ended

theorem trace_mono {larger : Nat} (le : fuel ≤ larger)
    (ended : search.trace fuel place = some result)
    : search.trace larger place = some result := by
  induction le with
  | refl => exact ended
  | step _ ih => exact trace_succ ih

/-- One amount of fuel is enough for every one of the places. -/
theorem enough_for_all {places : List Place}
    (each : ∀ place ∈ places, ∃ fuel result, search.trace fuel place = some result)
    : ∃ fuel, ∀ place ∈ places, ∃ result, search.trace fuel place = some result := by
  induction places with
  | nil => exact ⟨0, by simp⟩
  | cons first rest ih =>
      obtain ⟨fuelFirst, result, ended⟩ := each first (by simp)
      obtain ⟨fuelRest, others⟩ := ih (fun place member => each place (by simp [member]))
      refine ⟨max fuelFirst fuelRest, ?_⟩
      intro place member
      rcases List.mem_cons.mp member with rfl | later
      · exact ⟨result, trace_mono (le_max_left _ _) ended⟩
      · obtain ⟨other, endedOther⟩ := others place later
        exact ⟨other, trace_mono (le_max_right _ _) endedOther⟩

/-- Where no chain of links goes on for ever, every search ends. -/
theorem trace_ends (wellFounded : WellFounded (fun next place => search.Links place next))
    (place : Place)
    : ∃ fuel result, search.trace fuel place = some result := by
  induction place using wellFounded.induction with
  | _ place ih =>
      cases visited : search.visit place with
      | found result => exact ⟨1, .ok result, by simp [trace, visited]⟩
      | failed error => exact ⟨1, .error error, by simp [trace, visited]⟩
      | onward links =>
          obtain ⟨fuel, each⟩ := enough_for_all (fun next member =>
            ih next ⟨links, visited, member⟩)
          obtain ⟨results, all⟩ := exists_mapM each
          exact ⟨fuel + 1, _, (trace_onward visited).mpr ⟨results, all, rfl⟩⟩

/-- A relation without cycles that leads only to finitely many values goes on for ever from
none of them.
-/
theorem wellFounded_of_acyclic {α : Type*} {next : α → α → Prop} {targets : List α}
    (acyclic : ∀ a, ¬Relation.TransGen next a a)
    (bounded : ∀ a b, next a b → b ∈ targets)
    : WellFounded (fun b a => next a b) := by
  have irreflexive : Std.Irrefl (fun b a : {a // a ∈ targets} =>
      Relation.TransGen next a.1 b.1) := ⟨fun a => acyclic a.1⟩
  have transitive : IsTrans {a // a ∈ targets} (fun b a => Relation.TransGen next a.1 b.1) :=
    ⟨fun _ _ _ first second => second.trans first⟩
  have finite : Finite {a // a ∈ targets} :=
    Finite.of_surjective (fun place : Fin targets.length => ⟨targets.get place, targets.get_mem _⟩)
      (fun place => (List.mem_iff_get.mp place.2).imp (fun _ same => Subtype.ext same))
  have accessible (a : {a // a ∈ targets}) : Acc (fun b a => next a b) a.1 := by
    induction a using (Finite.wellFounded_of_trans_of_irrefl
      (fun b a : {a // a ∈ targets} => Relation.TransGen next a.1 b.1)).induction with
    | _ a ih =>
        constructor
        intro b linked
        exact ih ⟨b, bounded a.1 b linked⟩ (.single linked)
  constructor
  intro a
  constructor
  intro b linked
  exact accessible ⟨b, bounded a b linked⟩

/-- A result is the one result that the place leads to, and an error is a proper one. -/
structure Answers (search : BackwardSearch Place X E) (place : Place) (answer : Except E X)
    : Prop where
  ok : ∀ result, answer = .ok result → search.HitsOnly place result
  error : ∀ error, answer = .error error → search.proper error

/-- Every answer from the place is right. -/
def Traces (search : BackwardSearch Place X E) (place : Place) : Prop :=
  ∀ fuel answer, search.trace fuel place = some answer → search.Answers place answer

/-- Nothing improper is found at the place, and no link of it that leads to several results
stands beside links that lead to one and the same.
-/
structure Sound (search : BackwardSearch Place X E) (place : Place) : Prop where
  found : ∀ result, search.visit place = .found result → search.valid result
  failed : ∀ error, search.visit place = .failed error → search.proper error
  noLinks : search.visit place = .onward [] → search.proper (search.noLinks place)
  agrees
    : ∀ several single result,
        search.Links place several
        → search.HitsSeveral several
        → search.Links place single
        → search.HitsOnly single result
        → ∃ other differing,
            search.Links place other ∧ search.HitsOnly other differing ∧ differing ≠ result

/-- The one result that a place leads to is found. -/
def Completes (search : BackwardSearch Place X E) (place : Place) (answer : Except E X) : Prop :=
  ∀ result, search.HitsOnly place result → answer = .ok result

variable {links : List Place} {results : List (Except E X)}

section

variable (onward : search.visit place = .onward links)
  (all : links.mapM (search.trace fuel) = some results)
  (answers : ∀ next ∈ links, ∀ answer, search.trace fuel next = some answer
    → search.Answers next answer)
  (completes : ∀ next ∈ links, ∀ answer, search.trace fuel next = some answer
    → search.Completes next answer)

include onward all answers completes

theorem completes_step
    : search.Completes place
        (consensus (search.noLinks place) (search.ambiguous place) results) := by
  obtain ⟨mem, each⟩ := mem_of_mapM all
  rintro result ⟨hits, only⟩
  rw [consensus_eq_ok]
  constructor
  · obtain ⟨next, member, hitsNext⟩ := (hits_onward onward).mp hits
    obtain ⟨answer, ended⟩ := each next member
    refine (mem _).mpr ⟨next, member, ?_⟩
    have onlyNext : search.HitsOnly next result :=
      ⟨hitsNext, fun other hitsOther =>
        only other ((hits_onward onward).mpr ⟨next, member, hitsOther⟩)⟩
    rw [ended, completes next member answer ended result onlyNext]
  · intro other isResult
    obtain ⟨next, member, ended⟩ := (mem _).mp isResult
    have hitsOther := ((answers next member _ ended).ok other rfl).1
    exact only other ((hits_onward onward).mpr ⟨next, member, hitsOther⟩)

theorem answers_step (ambiguous : ∀ place, search.proper (search.ambiguous place))
    (sound : search.Sound place)
    : search.Answers place
        (consensus (search.noLinks place) (search.ambiguous place) results) := by
  obtain ⟨mem, each⟩ := mem_of_mapM all
  constructor
  · intro result agreed
    obtain ⟨isResult, agree⟩ := consensus_eq_ok.mp agreed
    obtain ⟨next, member, ended⟩ := (mem _).mp isResult
    have only := (answers next member _ ended).ok result rfl
    refine ⟨(hits_onward onward).mpr ⟨next, member, only.1⟩, ?_⟩
    intro other hitsOther
    obtain ⟨next', member', hitsNext⟩ := (hits_onward onward).mp hitsOther
    -- A link to several results would stand beside links that all lead to `result`.
    rcases hitsOnly_or_hitsSeveral hitsNext with onlyOther | several
    · obtain ⟨answer, ended'⟩ := each next' member'
      obtain rfl := completes next' member' answer ended' other onlyOther
      exact agree other ((mem _).mpr ⟨next', member', ended'⟩)
    · obtain ⟨third, differing, ⟨_, onward', memberThird⟩, onlyThird, differs⟩ :=
        sound.agrees next' next result ⟨links, onward, member'⟩ several
          ⟨links, onward, member⟩ only
      cases onward.symm.trans onward'
      obtain ⟨answer, endedThird⟩ := each third memberThird
      obtain rfl := completes third memberThird answer endedThird differing onlyThird
      exact absurd (agree differing ((mem _).mpr ⟨third, memberThird, endedThird⟩)) differs
  · intro error fails
    rcases consensus_eq_error fails with rfl | ⟨rfl, rfl⟩ | isResult
    · exact ambiguous place
    · have isEmpty : links = [] := by
        cases links with
        | nil => rfl
        | cons first rest =>
            obtain ⟨answer, ended⟩ := each first (by simp)
            have member := (mem answer).mpr ⟨first, by simp, ended⟩
            simp at member
      subst isEmpty
      exact sound.noLinks onward
    · obtain ⟨next, member, ended⟩ := (mem _).mp isResult
      exact (answers next member _ ended).error error rfl

end

variable {answer : Except E X}

theorem answers_and_completes (ambiguous : ∀ place, search.proper (search.ambiguous place))
    (sound : ∀ last, search.Reaches place last → search.Sound last)
    (ended : search.trace fuel place = some answer)
    : search.Answers place answer ∧ search.Completes place answer := by
  induction fuel generalizing place answer with
  | zero => contradiction
  | succ fuel ih =>
      cases visited : search.visit place with
      | found result =>
          obtain rfl : .ok result = answer := by simpa [trace, visited] using ended
          constructor
          · constructor
            · rintro other same
              cases same
              exact ⟨(hits_found visited).mpr ⟨(sound place .refl).found result visited, rfl⟩,
                fun _ hits => ((hits_found visited).mp hits).2⟩
            · intro error same
              cases same
          · rintro other ⟨hits, -⟩
            rw [((hits_found visited).mp hits).2]
      | failed error =>
          obtain rfl : .error error = answer := by simpa [trace, visited] using ended
          constructor
          · constructor
            · intro result same
              cases same
            · rintro other same
              cases same
              exact (sound place .refl).failed error visited
          · rintro other ⟨hits, -⟩
            exact absurd hits (not_hits_failed visited)
      | onward links =>
          obtain ⟨results, all, rfl⟩ := (trace_onward visited).mp ended
          have below (next : Place) (member : next ∈ links) (answer : Except E X)
              (ended : search.trace fuel next = some answer) :=
            ih (fun last reaches => sound last
              (reaches_of_links ⟨links, visited, member⟩ reaches)) ended
          exact ⟨answers_step visited all
              (fun next member answer ended => (below next member answer ended).1)
              (fun next member answer ended => (below next member answer ended).2)
              ambiguous (sound place .refl),
            completes_step visited all
              (fun next member answer ended => (below next member answer ended).1)
              (fun next member answer ended => (below next member answer ended).2)⟩

theorem completes_of_traces (traces : ∀ last, search.Reaches place last → search.Traces last)
    (ended : search.trace fuel place = some answer)
    : search.Completes place answer := by
  induction fuel generalizing place answer with
  | zero => contradiction
  | succ fuel ih =>
      cases visited : search.visit place with
      | found result =>
          obtain rfl : .ok result = answer := by simpa [trace, visited] using ended
          rintro other ⟨hits, -⟩
          rw [((hits_found visited).mp hits).2]
      | failed error =>
          rintro other ⟨hits, -⟩
          exact absurd hits (not_hits_failed visited)
      | onward links =>
          obtain ⟨results, all, rfl⟩ := (trace_onward visited).mp ended
          have reaches (next : Place) (member : next ∈ links) : search.Reaches place next :=
            .single ⟨links, visited, member⟩
          exact completes_step visited all
            (fun next member => traces next (reaches next member) fuel)
            (fun next member _ ended => ih (fun last further =>
              traces last ((reaches next member).trans further)) ended)

/-- Where every answer is right, each place is sound. -/
theorem sound_of_traces
    (ends : ∀ last, search.Reaches place last → ∃ fuel answer,
      search.trace fuel last = some answer)
    (traces : ∀ last, search.Reaches place last → search.Traces last)
    : search.Sound place := by
  have right := traces place .refl
  constructor
  · intro result found
    exact ((right 1 (.ok result) (by simp [trace, found])).ok result rfl).1.1
  · intro error failed
    exact (right 1 (.error error) (by simp [trace, failed])).error error rfl
  · intro onward
    exact (right 1 (.error (search.noLinks place)) (by simp [trace, onward, consensus])).error
      _ rfl
  · rintro several single result ⟨links, onward, member⟩ ⟨first, second, hitsFirst,
      hitsSecond, differs⟩ ⟨_, onward', memberSingle⟩ only
    cases onward.symm.trans onward'
    by_contra noOther
    simp only [not_exists, not_and, not_not] at noOther
    have reaches (next : Place) (member : next ∈ links) : search.Reaches place next :=
      .single ⟨links, onward, member⟩
    obtain ⟨fuel, each⟩ := enough_for_all (fun next member => ends next (reaches next member))
    obtain ⟨results, all⟩ := exists_mapM each
    obtain ⟨mem, -⟩ := mem_of_mapM all
    -- All the links that lead to one result lead to this one, so the search returns it.
    have agreed
        : consensus (search.noLinks place) (search.ambiguous place) results = .ok result := by
      rw [consensus_eq_ok]
      constructor
      · obtain ⟨answer, ended⟩ := each single memberSingle
        refine (mem _).mpr ⟨single, memberSingle, ?_⟩
        rw [ended, completes_of_traces (fun last further =>
          traces last ((reaches single memberSingle).trans further)) ended result only]
      · intro other isResult
        obtain ⟨next, memberNext, ended⟩ := (mem _).mp isResult
        have onlyOther := (traces next (reaches next memberNext) fuel _ ended).ok other rfl
        exact noOther next other ⟨links, onward, memberNext⟩ onlyOther
    have answers := right (fuel + 1) (.ok result)
      ((trace_onward onward).mpr ⟨results, all, agreed⟩)
    obtain ⟨-, same⟩ := answers.ok result rfl
    exact differs ((same first ((hits_onward onward).mpr ⟨several, member, hitsFirst⟩)).trans
      (same second ((hits_onward onward).mpr ⟨several, member, hitsSecond⟩)).symm)

end BackwardSearch

end N8n
