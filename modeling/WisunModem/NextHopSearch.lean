import WisunModem.Greatest
import WisunModem.NextHop
import Mathlib.Data.List.Nodup

/-!
# The search for a next hop

The order of `ipv6_route_is_better` is that of a number, and `ipv6_route_find_best` takes
the first route of the greatest number among those that are left.  So the loop ends with
the best route that can be taken, or where there is none with the best one that has a
router at all.
-/

namespace NextHop

section

variable (env : Providers) (nb : Neighbours) (dest : Address) (interfaceId : Int)
  (predicate : Option Predicate)

/-- The order of the routes: longest prefix, on-link, lowest metric. -/
def rank (r : Route) : Nat :=
  131072 * r.prefixLen + 65536 * r.onLink.toNat + (65535 - (total_metric env r).toNat)

/-- The route is on-link or has a router on a known interface. -/
def routed (r : Route) : Bool :=
  r.onLink || (nextHop env dest r).isSome && (env.cacheByInterfaceId r.info.interfaceId).isSome

/-- A permitted route with a next hop. -/
def usable (r : Route) : Bool := permits env dest interfaceId predicate r && routed env dest r

/-- The route is on-link, or its router is reachable or cannot be probed. -/
def reached (r : Route) : Bool :=
  r.onLink || match nextHop env dest r, env.cacheByInterfaceId r.info.interfaceId with
    | some hop, some cache => routerReachable nb cache r hop
    | _, _ => false

/-- A usable route that can be taken. -/
def good (r : Route) : Bool :=
  usable env dest interfaceId predicate r && reached env nb dest r

/-- The best of the routes for which `p` holds; the first of them where several are. -/
def bestOf (p : Route → Bool) (table : List Route) : Option Route :=
  (table.filter p).argmax (rank env)

end

variable {env : Providers} {nb : Neighbours} {dest : Address} {interfaceId : Int}
  {predicate : Option Predicate}

/-! ## The order of the routes -/

theorem total_metric_le (env : Providers) (r : Route) : (total_metric env r).toNat ≤ 65535 := by
  have hlt := (total_metric env r).toNat_lt
  omega

/-- **Better is a greater number.** -/
theorem is_better_eq (env : Providers) (a b : Route) :
    ipv6_route_is_better env a b = decide (rank env b < rank env a) := by
  have hma := total_metric_le env a
  have hmb := total_metric_le env b
  have hboola := a.onLink.toNat_le
  have hboolb := b.onLink.toNat_le
  unfold ipv6_route_is_better rank
  by_cases hshort : a.prefixLen < b.prefixLen
  · rw [if_pos hshort]
    exact (decide_eq_false (by omega)).symm
  rw [if_neg hshort]
  by_cases hlong : b.prefixLen < a.prefixLen
  · rw [if_pos hlong]
    exact (decide_eq_true (by omega)).symm
  rw [if_neg hlong]
  have hlen : a.prefixLen = b.prefixLen := by omega
  rw [hlen]
  cases a.onLink <;> cases b.onLink <;>
    simp only [Bool.not_false, Bool.not_true, Bool.and_true, Bool.and_false, Bool.toNat_true,
      Bool.toNat_false, UInt16.lt_iff_toNat_lt, if_true, if_false, Bool.false_eq_true] <;>
    grind

/-- **The best route that is left.** -/
theorem find_best_eq (table : List Route) :
    ipv6_route_find_best env dest interfaceId predicate table
      = (table.filter fun r => !r.searchSkip && permits env dest interfaceId predicate r).argmax
        (rank env) := by
  unfold ipv6_route_find_best List.argmax
  rw [List.foldl_filter]
  refine congrArg (List.foldl · none table) ?_
  funext best r
  cases hskip : r.searchSkip with
  | true => simp
  | false =>
    cases hpermits : permits env dest interfaceId predicate r with
    | false => simp
    | true =>
      cases best with
      | none => rfl
      | some b => simp [List.argAux, is_better_eq]

/-! ## Routes set aside -/

/-- `r'` is the route `r` but for the marks of searches and the next hop. -/
def Same (r' r : Route) : Prop :=
  r' = { r with
    info := { r.info with nextHopAddr := r'.info.nextHopAddr }
    searchSkip := r'.searchSkip
    probe := r'.probe
    probeTimer := r'.probeTimer }

theorem Same.refl (r : Route) : Same r r := rfl

theorem Same.ref {r' r : Route} (h : Same r' r) : r'.ref = r.ref := by rw [h]

theorem Same.rank {r' r : Route} (h : Same r' r) : rank env r' = rank env r := by
  rw [h]
  rfl

theorem Same.trans {r'' r' r : Route} (h : Same r'' r') (h' : Same r' r) : Same r'' r := by
  unfold Same at *
  rw [h'] at h
  exact h

theorem Same.skip {r' r : Route} (h : Same r' r) : Same r'.skip r := by
  unfold Same at *
  rw [h]
  rfl

theorem Same.via {r' r : Route} (hop : Address) (h : Same r' r) : Same (r'.via hop) r := by
  unfold Same at *
  rw [h]
  rfl

theorem Same.pass {r' r : Route} (h : Same r' r) : Same r'.pass r := by
  unfold Same at *
  rw [h]
  rfl

/-- The next hop was written only where the interface is not known. -/
def HopKept (env : Providers) (r' r : Route) : Prop :=
  r'.info.nextHopAddr = r.info.nextHopAddr ∨
    r.onLink = false ∧ env.cacheByInterfaceId r.info.interfaceId = none

/-- What a search in progress has done to the routes `orig`: those that are not set aside
are as they were, and those that are cannot be taken. -/
structure Aside (env : Providers) (nb : Neighbours) (dest : Address) (interfaceId : Int)
    (predicate : Option Predicate) (orig : List Route) (mark : Route → Route) : Prop where
  same : ∀ r ∈ orig, Same (mark r) r
  fresh : ∀ r ∈ orig, (mark r).searchSkip = false → mark r = r
  bad : ∀ r ∈ orig, (mark r).searchSkip = true →
    good env nb dest interfaceId predicate r = false
  hop : ∀ r ∈ orig, HopKept env (mark r) r

/-- A change of the marks of one route. -/
def change (ref : Nat) (f : Route → Route) (mark : Route → Route) (r : Route) : Route :=
  if r.ref = ref then f (mark r) else mark r

theorem update_map {orig : List Route} {mark : Route → Route}
    (href : ∀ r ∈ orig, (mark r).ref = r.ref) (ref : Nat) (f : Route → Route) :
    update ref f (orig.map mark) = orig.map (change ref f mark) := by
  unfold update
  rw [List.map_map]
  refine List.map_congr_left fun r hr => ?_
  rw [Function.comp_apply, href r hr]
  rfl

variable {orig : List Route} {mark : Route → Route}

theorem ref_inj (hnodup : (orig.map (·.ref)).Nodup) {a b : Route} (ha : a ∈ orig)
    (hb : b ∈ orig) (h : a.ref = b.ref) : a = b :=
  List.inj_on_of_nodup_map hnodup ha hb h

/-- Setting one more route aside. -/
theorem Aside.change (h : Aside env nb dest interfaceId predicate orig mark)
    (hnodup : (orig.map (·.ref)).Nodup) {b : Route} (hb : b ∈ orig) {f : Route → Route}
    (hsame : ∀ r' r, Same r' r → Same (f r') r) (hskip : ∀ r, (f r).searchSkip = true)
    (hbad : good env nb dest interfaceId predicate b = false)
    (hhop : HopKept env (f (mark b)) b) :
    Aside env nb dest interfaceId predicate orig (change b.ref f mark) where
  same := by
    intro r hr
    unfold NextHop.change
    split
    · exact hsame _ _ (h.same r hr)
    · exact h.same r hr
  fresh := by
    intro r hr
    unfold NextHop.change
    split
    · intro hfresh
      rw [hskip] at hfresh
      cases hfresh
    · exact h.fresh r hr
  bad := by
    intro r hr
    unfold NextHop.change
    split
    · next href =>
      intro _
      rw [ref_inj hnodup hr hb href]
      exact hbad
    · exact h.bad r hr
  hop := by
    intro r hr
    unfold NextHop.change
    split
    · next href =>
      rw [ref_inj hnodup hr hb href]
      exact hhop
    · exact h.hop r hr

/-- The routes that are left. -/
def left (env : Providers) (dest : Address) (interfaceId : Int) (predicate : Option Predicate)
    (mark : Route → Route) (r : Route) : Bool :=
  !(mark r).searchSkip && permits env dest interfaceId predicate r

/-- The search goes on among the routes that are left. -/
theorem Aside.find_best (h : Aside env nb dest interfaceId predicate orig mark) :
    ipv6_route_find_best env dest interfaceId predicate (orig.map mark)
      = bestOf env (left env dest interfaceId predicate mark) orig := by
  have hleft : ∀ r ∈ orig, ((fun r : Route => !r.searchSkip &&
      permits env dest interfaceId predicate r) ∘ mark) r
        = left env dest interfaceId predicate mark r := by
    intro r hr
    unfold left
    rw [Function.comp_apply]
    cases hskip : (mark r).searchSkip with
    | true => rfl
    | false => rw [h.fresh r hr hskip]
  rw [find_best_eq, List.filter_map, List.filter_congr hleft, bestOf]
  have hself : (orig.filter (left env dest interfaceId predicate mark)).map mark
      = orig.filter (left env dest interfaceId predicate mark) := by
    conv => rhs; rw [← List.map_id (orig.filter (left env dest interfaceId predicate mark))]
    refine List.map_congr_left fun r hr => ?_
    obtain ⟨hmem, hl⟩ := List.mem_filter.mp hr
    unfold left at hl
    rw [Bool.and_eq_true, Bool.not_eq_true'] at hl
    exact h.fresh r hmem hl.1
  rw [hself]

/-- A best route that is left is the best of those with a property that only routes that
are left have. -/
theorem bestOf_of_left {p q : Route → Bool} {b : Route} (h : bestOf env q orig = some b)
    (hpq : ∀ r ∈ orig, p r = true → q r = true) (hp : p b = true) : bestOf env p orig = some b := by
  have hfilter : (orig.filter q).filter p = orig.filter p := by
    rw [List.filter_filter]
    refine List.filter_congr fun r hr => ?_
    cases hpr : p r with
    | false => rfl
    | true => rw [hpq r hr hpr]; rfl
  unfold bestOf
  rw [← hfilter]
  exact Greatest.argmax_filter h hp

/-! ## The loop -/

/-- A search that goes on. -/
structure Going (env : Providers) (nb : Neighbours) (dest : Address) (interfaceId : Int)
    (predicate : Option Predicate) (orig : List Route) (mark : Route → Route) (s : Search) :
    Prop where
  table : s.table = orig.map mark
  aside : Aside env nb dest interfaceId predicate orig mark
  reachable : s.reachable = false
  best : (s.best = none ∧ ∀ r ∈ orig, (mark r).searchSkip = true →
      usable env dest interfaceId predicate r = false) ∨
    ∃ b, bestOf env (usable env dest interfaceId predicate) orig = some b ∧ s.best = some b.ref

/-- What a search ends with. -/
structure Found (env : Providers) (nb : Neighbours) (dest : Address) (interfaceId : Int)
    (predicate : Option Predicate) (orig : List Route) (s : Search) : Prop where
  table : ∃ mark, s.table = orig.map mark ∧ (∀ r ∈ orig, Same (mark r) r) ∧
    (s.reachable = false → ∀ r ∈ orig, HopKept env (mark r) r)
  reached : s.reachable = true → ∃ b, b ∈ orig ∧
    bestOf env (good env nb dest interfaceId predicate) orig = some b ∧ s.best = some b.ref
  unreached : s.reachable = false →
    (∀ r ∈ orig, good env nb dest interfaceId predicate r = false) ∧
      s.best = (bestOf env (usable env dest interfaceId predicate) orig).map (·.ref)

theorem bestOf_mem {p : Route → Bool} {b : Route} (h : bestOf env p orig = some b) :
    b ∈ orig ∧ p b = true := List.mem_filter.mp (List.argmax_mem h)

theorem permits_of_usable {r : Route} (h : usable env dest interfaceId predicate r = true) :
    permits env dest interfaceId predicate r = true := by
  unfold usable at h
  exact (Bool.and_eq_true_iff.mp h).1

theorem usable_of_good {r : Route} (h : good env nb dest interfaceId predicate r = true) :
    usable env dest interfaceId predicate r = true := by
  unfold good at h
  exact (Bool.and_eq_true_iff.mp h).1

/-- Where no route is left, the search is over. -/
theorem Going.found {s : Search} (h : Going env nb dest interfaceId predicate orig mark s)
    (hnone : bestOf env (left env dest interfaceId predicate mark) orig = none) :
    Found env nb dest interfaceId predicate orig s where
  table := ⟨mark, h.table, h.aside.same, fun _ => h.aside.hop⟩
  reached := fun hreach => by
    rw [h.reachable] at hreach
    cases hreach
  unreached := fun _ => by
    unfold bestOf at hnone
    rw [List.argmax_eq_none, List.filter_eq_nil_iff] at hnone
    have hskipped : ∀ r ∈ orig, permits env dest interfaceId predicate r = true →
        (mark r).searchSkip = true := by
      intro r hr hpermits
      by_contra hskip
      exact hnone r hr (by simp [left, hpermits, hskip])
    refine ⟨fun r hr => ?_, ?_⟩
    · cases hgood : good env nb dest interfaceId predicate r with
      | false => rfl
      | true =>
        have hbad := h.aside.bad r hr (hskipped r hr (permits_of_usable (usable_of_good hgood)))
        rw [hgood] at hbad
        cases hbad
    · rcases h.best with ⟨hbest, hunusable⟩ | ⟨b, hb, hbest⟩
      · have hnil : orig.filter (usable env dest interfaceId predicate) = [] := by
          refine List.filter_eq_nil_iff.mpr fun r hr husable => ?_
          rw [hunusable r hr (hskipped r hr (permits_of_usable husable))] at husable
          cases husable
        rw [hbest, bestOf, hnil]
        rfl
      · rw [hb, hbest]
        rfl

/-- A route that can be taken ends the search. -/
theorem Going.take {s : Search} (h : Going env nb dest interfaceId predicate orig mark s)
    {b : Route} (hb : bestOf env (left env dest interfaceId predicate mark) orig = some b)
    (hgood : good env nb dest interfaceId predicate b = true) {mark' : Route → Route}
    (hsame : ∀ r ∈ orig, Same (mark' r) r) :
    Found env nb dest interfaceId predicate orig
      { s with table := orig.map mark', best := some b.ref, reachable := true } where
  table := ⟨mark', rfl, hsame, fun hreach => by cases hreach⟩
  reached := fun _ => by
    refine ⟨b, (bestOf_mem hb).1, bestOf_of_left hb (fun r hr hgood => ?_) hgood, rfl⟩
    unfold left
    rw [permits_of_usable (usable_of_good hgood), Bool.and_true, Bool.not_eq_true']
    by_contra hskip
    have hbad := h.aside.bad r hr (by simpa using hskip)
    rw [hgood] at hbad
    cases hbad
  unreached := fun hreach => by cases hreach

/-- A route without a router is set aside. -/
theorem Going.drop {s : Search} (h : Going env nb dest interfaceId predicate orig mark s)
    {b : Route} (hunusable : usable env dest interfaceId predicate b = false)
    {mark' : Route → Route} (haside : Aside env nb dest interfaceId predicate orig mark')
    (hskip : ∀ r ∈ orig, (mark' r).searchSkip = true → (mark r).searchSkip = true ∨ r = b) :
    Going env nb dest interfaceId predicate orig mark' { s with table := orig.map mark' } where
  table := rfl
  aside := haside
  reachable := h.reachable
  best := by
    refine h.best.imp_left fun ⟨hbest, hskipped⟩ => ⟨hbest, fun r hr hmark => ?_⟩
    rcases hskip r hr hmark with hold | rfl
    · exact hskipped r hr hold
    · exact hunusable

/-- A route whose router is not reachable is set aside, and may be the first. -/
theorem Going.pass {s : Search} (h : Going env nb dest interfaceId predicate orig mark s)
    {b : Route} (hb : bestOf env (left env dest interfaceId predicate mark) orig = some b)
    (husable : usable env dest interfaceId predicate b = true) {mark' : Route → Route}
    (haside : Aside env nb dest interfaceId predicate orig mark') (need : Bool) :
    Going env nb dest interfaceId predicate orig mark'
      ⟨orig.map mark', s.best.or (some b.ref), false, need⟩ where
  table := rfl
  aside := haside
  reachable := rfl
  best := by
    right
    rcases h.best with ⟨hbest, hskipped⟩ | ⟨c, hc, hbest⟩
    · refine ⟨b, bestOf_of_left hb (fun r hr huse => ?_) husable, by rw [hbest]; rfl⟩
      unfold left
      rw [permits_of_usable huse, Bool.and_true, Bool.not_eq_true']
      by_contra hskip
      have hnot := hskipped r hr (by simpa using hskip)
      rw [huse] at hnot
      cases hnot
    · exact ⟨c, hc, by rw [hbest]; rfl⟩

/-- Setting a route aside leaves fewer. -/
theorem length_left_lt {b : Route} (hb : b ∈ orig) {mark' : Route → Route}
    (hfresh : (mark b).searchSkip = false) (hskipped : (mark' b).searchSkip = true)
    (hkeep : ∀ r ∈ orig, (mark r).searchSkip = true → (mark' r).searchSkip = true) :
    (orig.filter fun r => !(mark' r).searchSkip).length
      < (orig.filter fun r => !(mark r).searchSkip).length := by
  have hfilter : orig.filter (fun r => !(mark' r).searchSkip)
      = (orig.filter fun r => !(mark r).searchSkip).filter fun r => !(mark' r).searchSkip := by
    rw [List.filter_filter]
    refine List.filter_congr fun r hr => ?_
    cases hm : (mark r).searchSkip with
    | false => simp
    | true => simp [hkeep r hr hm]
  rw [hfilter]
  refine List.length_filter_lt_length_iff_exists.mpr ⟨b, ?_, by simp [hskipped]⟩
  exact List.mem_filter.mpr ⟨hb, by simp [hfresh]⟩

theorem change_skip {b r : Route} {f : Route → Route}
    (h : (change b.ref f mark r).searchSkip = true) : (mark r).searchSkip = true ∨ r.ref = b.ref := by
  unfold change at h
  split at h
  · next href => exact .inr href
  · exact .inl h

/-- A next hop that is probed was not computed. -/
theorem nextHop_of_unreachable {cache : Cache} {r : Route} {hop : Address}
    (hhop : nextHop env dest r = some hop) (hreach : routerReachable nb cache r hop = false) :
    hop = r.info.nextHopAddr := by
  have hsource : r.info.source ≠ .rplDaoSr := by
    intro heq
    unfold routerReachable at hreach
    rw [heq] at hreach
    simp [ipv6_route_probing] at hreach
  unfold nextHop ipv6_route_next_hop_computation at hhop
  rw [if_neg hsource] at hhop
  exact (Option.some.inj hhop).symm

theorem change_change (ref : Nat) (f g : Route → Route) (mark : Route → Route) :
    change ref f (change ref g mark) = change ref (f ∘ g) mark := by
  funext r
  unfold change
  split <;> rfl

/-- **The search ends** with the best route that can be taken, or with the best one that
has a router. -/
theorem ends_searchLoop (hnodup : (orig.map (·.ref)).Nodup) (fuel : Nat) {s : Search}
    (h : Going env nb dest interfaceId predicate orig mark s)
    (hfuel : (orig.filter fun r => !(mark r).searchSkip).length < fuel) :
    ∃ s', searchLoop env nb dest interfaceId predicate fuel s = some s' ∧
      Found env nb dest interfaceId predicate orig s' := by
  induction fuel generalizing s mark with
  | zero => exact absurd hfuel (Nat.not_lt_zero _)
  | succ fuel ih =>
    unfold searchLoop
    rw [h.table, h.aside.find_best]
    cases hb : bestOf env (left env dest interfaceId predicate mark) orig with
    | none => exact ⟨s, rfl, h.found hb⟩
    | some b =>
      obtain ⟨hmem, hleft⟩ := bestOf_mem hb
      unfold left at hleft
      rw [Bool.and_eq_true, Bool.not_eq_true'] at hleft
      obtain ⟨hfresh, hpermits⟩ := hleft
      have hrefs : ∀ r ∈ orig, (mark r).ref = r.ref := fun r hr => (h.aside.same r hr).ref
      -- a round that sets `b` aside
      have hround : ∀ (f : Route → Route) (s' : Search), (∀ r, (f r).searchSkip = true) →
          Going env nb dest interfaceId predicate orig (change b.ref f mark) s' →
          ∃ s'', searchLoop env nb dest interfaceId predicate fuel s' = some s'' ∧
            Found env nb dest interfaceId predicate orig s'' := by
        intro f s' hf hgoing
        refine ih hgoing ((length_left_lt hmem hfresh ?_ fun r _ hskip => ?_).trans_le
          (Nat.le_of_lt_succ hfuel))
        · unfold change
          rw [if_pos rfl]
          exact hf _
        · unfold change
          split
          · exact hf _
          · exact hskip
      dsimp only
      unfold consider
      cases honLink : b.onLink with
      | true =>
        have hgood : good env nb dest interfaceId predicate b = true := by
          simp [good, usable, routed, reached, hpermits, honLink]
        have hfound := h.take hb hgood h.aside.same
        rw [← h.table] at hfound
        exact ⟨_, rfl, hfound⟩
      | false =>
        cases hhop : nextHop env dest b with
        | none =>
          have hunusable : usable env dest interfaceId predicate b = false := by
            simp [usable, routed, honLink, hhop]
          have hgood : good env nb dest interfaceId predicate b = false := by
            simp [good, hunusable]
          have haside := h.aside.change hnodup hmem (fun _ _ hs => hs.skip) (fun _ => rfl) hgood
            (.inl (congrArg (·.info.nextHopAddr) (h.aside.fresh b hmem hfresh)))
          have hgoing := h.drop hunusable haside fun r hr hskip =>
            (change_skip hskip).imp_right fun href => ref_inj hnodup hr hmem href
          rw [← update_map hrefs, ← h.table] at hgoing
          exact hround Route.skip _ (fun _ => rfl) hgoing
        | some hop =>
          have hvia : ∀ r ∈ orig, (change b.ref (Route.via hop) mark r).ref = r.ref := by
            intro r hr
            unfold change
            split <;> exact hrefs r hr
          dsimp only
          cases hcache : env.cacheByInterfaceId b.info.interfaceId with
          | none =>
            have hunusable : usable env dest interfaceId predicate b = false := by
              simp [usable, routed, honLink, hcache]
            have hgood : good env nb dest interfaceId predicate b = false := by
              simp [good, hunusable]
            have haside := h.aside.change hnodup hmem (f := Route.skip ∘ Route.via hop)
              (fun _ _ hs => (hs.via hop).skip) (fun _ => rfl) hgood (.inr ⟨honLink, hcache⟩)
            have hgoing := h.drop hunusable haside fun r hr hskip =>
              (change_skip hskip).imp_right fun href => ref_inj hnodup hr hmem href
            rw [← change_change, ← update_map hvia, ← update_map hrefs, ← h.table] at hgoing
            exact hround (Route.skip ∘ Route.via hop) _ (fun _ => rfl) (change_change .. ▸ hgoing)
          | some cache =>
            have husable : usable env dest interfaceId predicate b = true := by
              simp [usable, routed, hpermits, hhop, hcache]
            dsimp only
            cases hreach : routerReachable nb cache b hop with
            | true =>
              have hgood : good env nb dest interfaceId predicate b = true := by
                simp [good, husable, reached, hhop, hcache, hreach]
              have hsame : ∀ r ∈ orig, Same (change b.ref (Route.via hop) mark r) r := by
                intro r hr
                unfold change
                split
                · exact (h.aside.same r hr).via hop
                · exact h.aside.same r hr
              have hfound := h.take hb hgood hsame
              rw [← update_map hrefs, ← h.table] at hfound
              exact ⟨_, rfl, hfound⟩
            | false =>
              have hgood : good env nb dest interfaceId predicate b = false := by
                simp [good, reached, honLink, hhop, hcache, hreach]
              have haside := h.aside.change hnodup hmem
                (f := Route.pass ∘ Route.via hop)
                (fun _ _ hs => (hs.via hop).pass) (fun _ => rfl) hgood
                (.inl (nextHop_of_unreachable hhop hreach))
              have hgoing := h.pass hb husable haside true
              rw [← change_change, ← update_map hvia, ← update_map hrefs, ← h.table] at hgoing
              exact hround (Route.pass ∘ Route.via hop) _ (fun _ => rfl)
                (change_change .. ▸ hgoing)

end NextHop
