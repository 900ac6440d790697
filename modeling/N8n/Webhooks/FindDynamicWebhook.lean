import Mathlib.Data.List.Induction
import N8n.Library.Selection

/-! The lookup of webhooks with dynamic path segments
(`packages/cli/src/webhooks/webhook.service.ts`), and when it goes by the positions of the
segments.
-/

namespace N8n.Webhooks

open Library

abbrev Segment := List Char

/-- `path.split('/')`. -/
def segments (path : String) : List Segment := path.toList.splitOn '/'

/-- A segment such as `:id`. -/
def isDynamicSegment (segment : Segment) : Bool := segment.head? = some ':'

-- `packages/@n8n/db/src/entities/webhook-entity.ts`
structure WebhookEntity where
  workflowId : String
  webhookPath : String
  method : String
  node : String
  webhookId : Option String
  pathLength : Option Nat
  deriving DecidableEq, Repr

namespace WebhookEntity

def staticSegments (self : WebhookEntity) : List Segment :=
  (segments self.webhookPath).filter (fun segment => !isDynamicSegment segment)

def isDynamic (self : WebhookEntity) : Bool :=
  (segments self.webhookPath).any isDynamicSegment

end WebhookEntity

/-- The query of the repository. Without a method it does not look at methods. -/
def findBy (stored : List WebhookEntity) (webhookId : Segment) (method : Option String)
    (pathLength : Nat)
    : List WebhookEntity :=
  stored.filter (fun webhook =>
    webhook.webhookId.map String.toList = some webhookId
      && method.all (fun wanted => webhook.method = wanted)
      && webhook.pathLength = some pathLength)

structure Matches where
  webhook : Option WebhookEntity
  maxMatches : Nat
  deriving DecidableEq, Repr

def allStaticSegmentsMatch (requestSegments : List Segment) (dw : WebhookEntity) : Bool :=
  dw.staticSegments.all (fun segment => requestSegments.contains segment)

def considerWebhook (requestSegments : List Segment) (acc : Matches) (dw : WebhookEntity)
    : Matches :=
  if allStaticSegmentsMatch requestSegments dw ∧ dw.staticSegments.length > acc.maxMatches then
    ⟨some dw, dw.staticSegments.length⟩
  else if dw.staticSegments.length = 0 ∧ acc.webhook = none then
    -- edge case: if path is `:var`, match on anything
    ⟨some dw, acc.maxMatches⟩
  else acc

/-- The stored webhooks that the request is compared with. -/
def dynamicWebhooks (stored : List WebhookEntity) (path : String) (method : Option String)
    : List WebhookEntity :=
  match segments path with
  | [] => []
  | uuidSegment :: otherSegments => findBy stored uuidSegment method otherSegments.length

def findDynamicWebhook (stored : List WebhookEntity) (path : String)
    (method : Option String)
    : Option WebhookEntity :=
  ((dynamicWebhooks stored path method).foldl
    (considerWebhook (segments path).tail) ⟨none, 0⟩).webhook

def staticCount (webhook : WebhookEntity) : Nat := webhook.staticSegments.length

/-- Among the webhooks seen so far, the first with the most static segments of those whose
static segments all occur in the request.
-/
structure Matches.IsBest (acc : Matches) (requestSegments : List Segment)
    (seen : List WebhookEntity) : Prop where
  missing
    : acc.webhook = none → seen.filter (allStaticSegmentsMatch requestSegments) = []
  found
    : ∀ webhook, acc.webhook = some webhook
        → IsFirstBest staticCount (seen.filter (allStaticSegmentsMatch requestSegments)) webhook
  count : acc.maxMatches = (acc.webhook.map staticCount).getD 0

theorem allStaticSegmentsMatch_of_none {requestSegments : List Segment} {dw : WebhookEntity}
    (none : dw.staticSegments.length = 0)
    : allStaticSegmentsMatch requestSegments dw = true := by
  rw [allStaticSegmentsMatch, List.length_eq_zero_iff.mp none]
  rfl

theorem Matches.IsBest.consider {acc : Matches} {requestSegments : List Segment}
    {seen : List WebhookEntity} (best : acc.IsBest requestSegments seen) (dw : WebhookEntity)
    : (considerWebhook requestSegments acc dw).IsBest requestSegments (seen ++ [dw]) := by
  have count := best.count
  rw [considerWebhook]
  split
  · next better =>
      refine ⟨by simp, ?_, by simp [staticCount]⟩
      intro webhook same
      cases same
      rw [List.filter_append, List.filter_cons_of_pos better.1, List.filter_nil]
      cases present : acc.webhook with
      | none =>
          rw [best.missing present]
          exact .single staticCount dw
      | some current =>
          have more : staticCount current < staticCount dw := by
            rw [present] at count
            exact Nat.lt_of_le_of_lt (Nat.le_of_eq count.symm) better.2
          exact (best.found current present).append_better more
  · next notBetter =>
      split
      · next edge =>
          have matching : allStaticSegmentsMatch requestSegments dw = true :=
            allStaticSegmentsMatch_of_none edge.1
          refine ⟨by simp, ?_, by simpa [edge.2, staticCount, edge.1] using count⟩
          intro webhook same
          cases same
          rw [List.filter_append, best.missing edge.2, List.filter_cons_of_pos matching,
            List.filter_nil]
          exact .single staticCount dw
      · next notEdge =>
          refine ⟨?_, ?_, count⟩
          · intro missing
            have unmatched : ¬ allStaticSegmentsMatch requestSegments dw = true := by
              intro matching
              rw [missing] at count
              have positive : dw.staticSegments.length ≠ 0 :=
                fun zero => notEdge ⟨zero, missing⟩
              exact notBetter ⟨matching, by rw [count]; exact Nat.pos_of_ne_zero positive⟩
            rw [List.filter_append, best.missing missing, List.filter_cons_of_neg unmatched]
            rfl
          · intro webhook present
            rw [List.filter_append]
            cases matching : allStaticSegmentsMatch requestSegments dw with
            | false =>
                rw [List.filter_cons_of_neg (by simp [matching]), List.filter_nil,
                  List.append_nil]
                exact best.found webhook present
            | true =>
                rw [List.filter_cons_of_pos matching, List.filter_nil]
                rw [present] at count
                apply (best.found webhook present).append_other
                have least := not_and.mp notBetter matching
                rw [count] at least
                exact Nat.le_of_not_lt least

theorem isBest_foldl (requestSegments : List Segment) (webhooks : List WebhookEntity)
    : (webhooks.foldl (considerWebhook requestSegments) ⟨none, 0⟩).IsBest requestSegments
        webhooks := by
  induction webhooks using List.reverseRecOn with
  | nil => exact ⟨fun _ => rfl, fun _ present => by contradiction, rfl⟩
  | append_singleton seen dw ih =>
      rw [List.foldl_append]
      exact ih.consider dw

/-- The pattern matches the request segment by segment. -/
def matchesSegments : List Segment → List Segment → Bool
  | [], [] => true
  | pattern :: patterns, segment :: rest =>
      (isDynamicSegment pattern || pattern = segment) && matchesSegments patterns rest
  | _, _ => false

/-- The path of the webhook matches the request behind the id of the webhook. -/
def WebhookEntity.matchesPath (webhook : WebhookEntity) (path : String) : Bool :=
  matchesSegments (segments webhook.webhookPath) (segments path).tail

/-- Only webhooks that match are found, and if one matches, then one of those with the most
static segments is found.
-/
structure RoutesByPosition (stored : List WebhookEntity) (path : String)
    (method : Option String) : Prop where
  matching
    : ∀ webhook, findDynamicWebhook stored path method = some webhook
        → webhook.matchesPath path = true
  mostSpecific
    : ∀ other ∈ dynamicWebhooks stored path method, other.matchesPath path = true
        → ∃ webhook,
            findDynamicWebhook stored path method = some webhook
            ∧ webhook.matchesPath path = true
            ∧ staticCount other ≤ staticCount webhook

/-- Each stored webhook that has its static segments somewhere in the request, but does not
match, is beaten by another one that has them there: one with more static segments, or one
with as many that the query returns earlier.
-/
def MisplacedBeaten (stored : List WebhookEntity) (path : String) (method : Option String)
    : Prop :=
  ∀ before webhook behind,
    dynamicWebhooks stored path method = before ++ webhook :: behind
    → allStaticSegmentsMatch (segments path).tail webhook = true
    → webhook.matchesPath path = false
    → (∃ other ∈ before,
        allStaticSegmentsMatch (segments path).tail other = true
        ∧ staticCount webhook ≤ staticCount other)
      ∨ ∃ other ∈ behind,
        allStaticSegmentsMatch (segments path).tail other = true
        ∧ staticCount webhook < staticCount other

/-- A webhook that matches has its static segments in the request, by induction over the
two paths.
-/
theorem mem_of_matchesSegments {patterns request : List Segment}
    (matching : matchesSegments patterns request = true) {pattern : Segment}
    (member : pattern ∈ patterns) (static : isDynamicSegment pattern = false)
    : pattern ∈ request := by
  induction patterns generalizing request with
  | nil => contradiction
  | cons head rest ih =>
      cases request with
      | nil => contradiction
      | cons segment others =>
          simp only [matchesSegments, Bool.and_eq_true, Bool.or_eq_true,
            decide_eq_true_eq] at matching
          obtain ⟨here, there⟩ := matching
          rcases List.mem_cons.mp member with same | later
          · subst same
            rcases here with dynamic | equal
            · rw [static] at dynamic
              contradiction
            · exact equal ▸ (.head _)
          · exact List.mem_cons_of_mem _ (ih there later)

theorem allStaticSegmentsMatch_of_matchesPath {webhook : WebhookEntity} {path : String}
    (matching : webhook.matchesPath path = true)
    : allStaticSegmentsMatch (segments path).tail webhook = true := by
  rw [allStaticSegmentsMatch, List.all_eq_true]
  intro segment member
  obtain ⟨inside, static⟩ := List.mem_filter.mp member
  have present := mem_of_matchesSegments matching inside (by simpa using static)
  simpa using present

/-- The lookup goes by position if the webhook with the best set of segments does. -/
theorem routesByPosition_iff (stored : List WebhookEntity) (path : String)
    (method : Option String)
    : RoutesByPosition stored path method ↔ MisplacedBeaten stored path method := by
  have best := isBest_foldl (segments path).tail (dynamicWebhooks stored path method)
  constructor
  · intro routes before webhook behind split accepted misplaced
    by_contra unbeaten
    have first : IsFirstBest staticCount
        ((dynamicWebhooks stored path method).filter
          (allStaticSegmentsMatch (segments path).tail)) webhook := by
      apply isFirstBest_filter_iff.mpr
      refine ⟨before, behind, split, accepted, ?_, ?_⟩
      · intro other member matching
        by_contra least
        exact unbeaten (.inl ⟨other, member, matching, Nat.le_of_not_lt least⟩)
      · intro other member matching
        by_contra more
        exact unbeaten (.inr ⟨other, member, matching, Nat.lt_of_not_le more⟩)
    have found : findDynamicWebhook stored path method = some webhook := by
      cases result : findDynamicWebhook stored path method with
      | none =>
          have none := best.missing result
          exact absurd (none ▸ first.mem) (List.not_mem_nil)
      | some winner => rw [(best.found winner result).unique first]
    rw [routes.matching webhook found] at misplaced
    contradiction
  · intro beaten
    have winner_matches : ∀ webhook, findDynamicWebhook stored path method = some webhook
        → webhook.matchesPath path = true := by
      intro webhook found
      obtain ⟨before, behind, split, accepted, less, most⟩ :=
        isFirstBest_filter_iff.mp (best.found webhook found)
      by_contra misplaced
      rcases beaten before webhook behind split accepted (by simpa using misplaced) with
        ⟨other, member, matching, least⟩ | ⟨other, member, matching, more⟩
      · exact absurd (less other member matching) (Nat.not_lt_of_le least)
      · exact absurd (most other member matching) (Nat.not_le_of_lt more)
    refine ⟨winner_matches, ?_⟩
    intro other member matching
    have inside : other ∈ (dynamicWebhooks stored path method).filter
        (allStaticSegmentsMatch (segments path).tail) :=
      List.mem_filter.mpr ⟨member, allStaticSegmentsMatch_of_matchesPath matching⟩
    cases result : findDynamicWebhook stored path method with
    | none =>
        have none := best.missing result
        exact absurd (none ▸ inside) List.not_mem_nil
    | some webhook =>
        exact ⟨webhook, rfl, winner_matches webhook result,
          (best.found webhook result).score_le inside⟩

/-- `user/:id` is found for `u/5/user`. -/
theorem swappedSegments_found
    : ¬ RoutesByPosition [⟨"w", "user/:id", "GET", "Webhook", some "u", some 2⟩] "u/5/user"
        (some "GET") := by
  intro routes
  have misplaced := routes.matching ⟨"w", "user/:id", "GET", "Webhook", some "u", some 2⟩
    (by decide +kernel)
  revert misplaced
  decide +kernel

end N8n.Webhooks
