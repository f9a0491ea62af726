import WisunModem.NextHopSearch
import Mathlib.Data.List.Rotate

/-!
# Next hops of one lookup and of many

A lookup takes the best route that is on-link or has a router that is reachable or cannot
be probed, else the best one that has a router.  It probes routers of better routes only.
Where no router is ever reachable, lookups go round the equally good routes.
-/

namespace NextHop

open Greatest

variable {env : Providers} {nb : Neighbours} {dest : Address} {interfaceId : Int}
  {predicate : Option Predicate} {table : List Route}

/-! ## Probing -/

/-- Nothing but the marks of probing differs. -/
def Flagged (r' r : Route) : Prop := r' = { r with probe := r'.probe, probeTimer := r'.probeTimer }

theorem Flagged.same {r' r : Route} (h : Flagged r' r) : Same r' r := by
  unfold Same
  unfold Flagged at h
  rw [h]

theorem Flagged.info {r' r : Route} (h : Flagged r' r) : r'.info = r.info := by rw [h]

theorem Flagged.is_better {r' r : Route} (h : Flagged r' r) (b : Route) :
    ipv6_route_is_better env r' b = ipv6_route_is_better env r b := by
  rw [is_better_eq, is_better_eq, h.same.rank]

theorem Flagged.same_router {r' r : Route} (h : Flagged r' r) (b : Route) :
    ipv6_route_same_router r' b = ipv6_route_same_router r b := by
  rw [h]
  rfl

/-- What the loop over the table keeps: only marks are changed, and what is probed is the
router of a better route. -/
structure Probing (env : Providers) (best : Route) (base : List Route) (t : Probed) : Prop where
  table : ∃ g, t.1 = base.map g ∧ ∀ r, Flagged (g r) r
  probed : ∀ p ∈ t.2, ∃ r ∈ base, r.router = p ∧ ipv6_route_is_better env r best = true ∧
    ipv6_route_same_router r best = false

/-- A change of marks keeps it. -/
theorem Probing.map {best : Route} {base : List Route} {t : Probed}
    (h : Probing env best base t) {f : Route → Route} (hf : ∀ r, Flagged (f r) r) :
    Probing env best base (t.1.map f, t.2) where
  table := by
    obtain ⟨g, hg, hflagged⟩ := h.table
    refine ⟨f ∘ g, by rw [hg, List.map_map], fun r => ?_⟩
    have hfirst := hf (g r)
    have hsecond := hflagged r
    unfold Flagged at *
    rw [Function.comp_apply, hfirst, hsecond]
  probed := h.probed

theorem Probing.probeOne {best : Route} {base : List Route} {t : Probed}
    (h : Probing env best base t) (ref : Nat) :
    Probing env best base (probeOne env nb best t ref) := by
  unfold NextHop.probeOne
  split
  · exact h
  next r hfind =>
  split
  · exact h
  have hclear : Probing env best base (update ref (fun r => { r with probe := false }) t.1, t.2) := by
    refine h.map fun r => ?_
    split <;> rfl
  dsimp only
  split
  case isFalse => exact hclear
  next hbetter =>
  unfold ipv6_route_probe
  split
  · exact hclear
  split
  · exact hclear
  split
  · exact hclear
  have hmarked := hclear.map (f := fun r' => if ipv6_route_same_router r'
      { r with probe := false } then { r' with probeTimer := 60, probe := false } else r')
      fun r' => by split <;> rfl
  refine ⟨hmarked.table, fun p hp => ?_⟩
  rcases List.mem_append.mp hp with hp | hp
  · exact h.probed p hp
  obtain rfl := List.mem_singleton.mp hp
  obtain ⟨g, hg, hflagged⟩ := h.table
  have hmem := List.mem_of_find?_eq_some hfind
  rw [hg] at hmem
  obtain ⟨r', hr', rfl⟩ := List.mem_map.mp hmem
  rw [Bool.and_eq_true, Bool.not_eq_true', (hflagged r').is_better,
    (hflagged r').same_router] at hbetter
  refine ⟨r', hr', ?_, hbetter.2, hbetter.1⟩
  unfold Route.router
  rw [(hflagged r').info]

/-- **Only routers of better routes are probed.** -/
theorem probing_foldl {best : Route} {base : List Route} (refs : List Nat) {t : Probed}
    (h : Probing env best base t) :
    Probing env best base (refs.foldl (NextHop.probeOne env nb best) t) := by
  induction refs generalizing t with
  | nil => exact h
  | cons ref refs ih => exact ih (h.probeOne ref)

/-! ## One lookup -/

/-- The equally good routes that are best for `p`. -/
def ties (env : Providers) (p : Route → Bool) (table : List Route) : List Route :=
  greatest (rank env) (table.filter p)

theorem head?_ties (p : Route → Bool) : (ties env p table).head? = bestOf env p table :=
  head?_greatest _ _

/-- Marks do not count. -/
theorem ties_map {p : Route → Bool} {m : Route → Route} (hp : ∀ r ∈ table, p (m r) = p r)
    (hrank : ∀ r ∈ table, rank env (m r) = rank env r) :
    ties env p (table.map m) = (ties env p table).map m := by
  unfold ties
  have hfilter : table.filter (p ∘ m) = table.filter p := List.filter_congr hp
  rw [List.filter_map, hfilter]
  exact greatest_map fun r hr => hrank r (List.mem_filter.mp hr).1

theorem bestOf_map {p : Route → Bool} {m : Route → Route} (hp : ∀ r ∈ table, p (m r) = p r)
    (hrank : ∀ r ∈ table, rank env (m r) = rank env r) :
    bestOf env p (table.map m) = (bestOf env p table).map m := by
  rw [← head?_ties, ties_map hp hrank, List.head?_map, head?_ties]

/-- The route goes to the end of the table. -/
def toEnd (b : Option Route) (table : List Route) : List Route :=
  match b with
  | none => table
  | some b => table.filter (·.ref ≠ b.ref) ++ table.filter (·.ref = b.ref)

/-- What a lookup leaves. -/
structure Chosen (env : Providers) (nb : Neighbours) (dest : Address) (interfaceId : Int)
    (predicate : Option Predicate) (table : List Route) (c : Choice) : Prop where
  route : c.route.map (·.ref) = ((bestOf env (good env nb dest interfaceId predicate) table).or
    (bestOf env (usable env dest interfaceId predicate) table)).map (·.ref)
  probed : ∀ p ∈ c.probed, ∃ r ∈ c.table, ∃ best, c.route = some best ∧ r.router = p ∧
    ipv6_route_is_better env r best = true ∧ ipv6_route_same_router r best = false
  rotated : (∀ r ∈ table, good env nb dest interfaceId predicate r = false) →
    ∃ m : Route → Route, (∀ r ∈ table, Same (m r) r ∧ HopKept env (m r) r) ∧
    c.table = (toEnd (bestOf env (usable env dest interfaceId predicate) table) table).map m

/-- A route of the table is found by its number. -/
theorem find_ref (hnodup : (table.map (·.ref)).Nodup) {m : Route → Route}
    (href : ∀ r ∈ table, (m r).ref = r.ref) {b : Route} (hb : b ∈ table) :
    (table.map m).find? (·.ref = b.ref) = some (m b) := by
  rw [List.find?_map]
  have hfind : table.find? ((fun r : Route => decide (r.ref = b.ref)) ∘ m) = some b := by
    cases hfound : table.find? ((fun r : Route => decide (r.ref = b.ref)) ∘ m) with
    | none =>
      have hnot := List.find?_eq_none.mp hfound b hb
      simp [href b hb] at hnot
    | some r =>
      have hmem := List.mem_of_find?_eq_some hfound
      have hr := List.find?_some hfound
      rw [Function.comp_apply, decide_eq_true_eq, href r hmem] at hr
      rw [ref_inj hnodup hmem hb hr]
  rw [hfind, Option.map_some]

theorem start_going {orig : List Route} (hfresh : ∀ r ∈ orig, r.searchSkip = false) :
    Going env nb dest interfaceId predicate orig id ⟨orig, none, false, false⟩ where
  table := (List.map_id orig).symm
  aside := ⟨fun r _ => .refl r, fun _ _ _ => rfl,
    fun r hr hskip => absurd hskip (by simp [hfresh r hr]), fun _ _ => .inl rfl⟩
  reachable := rfl
  best := .inl ⟨rfl, fun r hr hskip => absurd hskip (by simp [hfresh r hr])⟩

theorem filter_ref_map {m : Route → Route} (href : ∀ r ∈ table, (m r).ref = r.ref) (ref : Nat) :
    (table.map m).filter (·.ref ≠ ref) ++ (table.map m).filter (·.ref = ref)
      = (table.filter (·.ref ≠ ref) ++ table.filter (·.ref = ref)).map m := by
  have hother : table.filter ((fun r : Route => decide (r.ref ≠ ref)) ∘ m)
      = table.filter (·.ref ≠ ref) :=
    List.filter_congr fun r hr => by rw [Function.comp_apply, href r hr]
  have hself : table.filter ((fun r : Route => decide (r.ref = ref)) ∘ m)
      = table.filter (·.ref = ref) :=
    List.filter_congr fun r hr => by rw [Function.comp_apply, href r hr]
  rw [List.filter_map, List.filter_map, hother, hself, List.map_append]

theorem mem_toEnd {b : Option Route} {r : Route} : r ∈ toEnd b table ↔ r ∈ table := by
  cases b with
  | none => rfl
  | some b =>
    unfold toEnd
    by_cases href : r.ref = b.ref <;> simp [href]

/-- What follows the loop where a route was found. -/
theorem finish_some (env : Providers) (nb : Neighbours) {s : Search} {best : Route}
    (h : (s.best.bind fun ref => s.table.find? (·.ref = ref)) = some best) :
    ∃ g : Route → Route, (∀ r, Flagged (g r) r) ∧ (finish env nb s).route = some best ∧
      (finish env nb s).table = (if s.reachable then s.table else toEnd (some best) s.table).map g ∧
      ∀ p ∈ (finish env nb s).probed, ∃ r ∈ (finish env nb s).table, r.router = p ∧
        ipv6_route_is_better env r best = true ∧ ipv6_route_same_router r best = false := by
  have hprobing : Probing env best s.table (if s.needToProbe then
      (s.table.map (·.ref)).foldl (probeOne env nb best) (s.table, []) else (s.table, [])) := by
    have hstart : Probing env best s.table (s.table, []) :=
      ⟨⟨id, (List.map_id _).symm, fun _ => rfl⟩, fun p hp => by cases hp⟩
    split
    · exact probing_foldl _ hstart
    · exact hstart
  obtain ⟨⟨g, hg, hflagged⟩, hprobed⟩ := hprobing
  have htable : (finish env nb s).table
      = (if s.reachable then s.table else toEnd (some best) s.table).map g := by
    unfold finish
    rw [h]
    dsimp only
    rw [hg]
    cases s.reachable with
    | true => rfl
    | false => exact filter_ref_map (fun r _ => (hflagged r).same.ref) best.ref
  refine ⟨g, hflagged, by unfold finish; rw [h], htable, fun p hp => ?_⟩
  have hp' : p ∈ (if s.needToProbe then
      (s.table.map (·.ref)).foldl (probeOne env nb best) (s.table, []) else (s.table, [])).2 := by
    unfold finish at hp
    rw [h] at hp
    exact hp
  obtain ⟨r, hr, hrouter, hbetter, hother⟩ := hprobed p hp'
  refine ⟨g r, htable ▸ List.mem_map_of_mem ?_, ?_, ?_, ?_⟩
  · split
    · exact hr
    · exact mem_toEnd.mpr hr
  · unfold Route.router
    rw [(hflagged r).info]
    exact hrouter
  · rw [(hflagged r).is_better, hbetter]
  · rw [(hflagged r).same_router, hother]

/-- The search flags are cleared. -/
def Route.cleared (r : Route) : Route := { r with searchSkip := false }

theorem Same.cleared {r' r : Route} (h : Same r' r.cleared) : Same r' r := by
  unfold Same at *
  rw [h]
  rfl

/-- **A lookup ends.** -/
theorem ends_choose (env : Providers) (nb : Neighbours) (dest : Address) (interfaceId : Int)
    (predicate : Option Predicate) (hnodup : (table.map (·.ref)).Nodup) :
    ∃ c, ipv6_route_choose_next_hop env nb dest interfaceId predicate table = some c ∧
      Chosen env nb dest interfaceId predicate table c := by
  have hrefs : (table.map Route.cleared).map (·.ref) = table.map (·.ref) := by
    rw [List.map_map]
    rfl
  have hfresh : ∀ r ∈ table.map Route.cleared, r.searchSkip = false := by
    intro r hr
    obtain ⟨r, -, rfl⟩ := List.mem_map.mp hr
    rfl
  have hgoing : Going env nb dest interfaceId predicate _ id _ := start_going hfresh
  have hfuel : ((table.map Route.cleared).filter fun r => !(id r).searchSkip).length
      < table.length + 1 := by
    refine Nat.lt_succ_of_le ((List.length_filter_le _ _).trans ?_)
    rw [List.length_map]
  obtain ⟨s, hloop, hfound⟩ := ends_searchLoop (hrefs ▸ hnodup) _ hgoing hfuel
  obtain ⟨mark, htable, hsame, hhop⟩ := hfound.table
  refine ⟨finish env nb s, ?_, ?_⟩
  · unfold ipv6_route_choose_next_hop
    exact congrArg (Option.map (finish env nb)) hloop
  -- clearing the flags changes neither what is good nor the order
  have hcleared : ∀ p : Route → Bool, (∀ r, p r.cleared = p r) →
      bestOf env p (table.map Route.cleared) = (bestOf env p table).map Route.cleared :=
    fun p hp => bestOf_map (fun r _ => hp r) fun _ _ => rfl
  have hbestgood := hcleared (good env nb dest interfaceId predicate) fun _ => rfl
  have hbestusable := hcleared (usable env dest interfaceId predicate) fun _ => rfl
  have hsame' : ∀ r ∈ table, Same (mark r.cleared) r :=
    fun r hr => (hsame _ (List.mem_map_of_mem hr)).cleared
  have hstable : s.table = table.map (mark ∘ Route.cleared) := by
    rw [htable, List.map_map]
  have hfind : ∀ b ∈ table, s.best = some b.ref →
      (s.best.bind fun ref => s.table.find? (·.ref = ref)) = some (mark b.cleared) := by
    intro b hb hbest
    rw [hbest, hstable]
    exact find_ref hnodup (fun r hr => (hsame' r hr).ref) hb
  cases hreach : s.reachable with
  | true =>
    obtain ⟨c, -, hgood, hbest⟩ := hfound.reached hreach
    rw [hbestgood] at hgood
    obtain ⟨b, hb, rfl⟩ := Option.map_eq_some_iff.mp hgood
    have hmem := (bestOf_mem hb).1
    obtain ⟨g, hflagged, hroute, hfinal, hprobed⟩ := finish_some env nb
      (hfind b hmem hbest)
    rw [hreach, if_pos rfl] at hfinal
    refine ⟨?_, fun p hp => ?_, fun hnone => ?_⟩
    · rw [hroute, hb]
      exact congrArg some (hsame' b hmem).ref
    · obtain ⟨r, hr, hrest⟩ := hprobed p hp
      exact ⟨r, hr, _, hroute, hrest⟩
    · have hb' := (bestOf_mem hb).2
      rw [hnone b hmem] at hb'
      cases hb'
  | false =>
    obtain ⟨hnone, hbest⟩ := hfound.unreached hreach
    have hnogood : bestOf env (good env nb dest interfaceId predicate) table = none := by
      cases hb : bestOf env (good env nb dest interfaceId predicate) table with
      | none => rfl
      | some b =>
        obtain ⟨hmem, hgood⟩ := bestOf_mem hb
        have hbad := hnone _ (List.mem_map_of_mem (f := Route.cleared) hmem)
        exact absurd hgood (Bool.eq_false_iff.mp hbad)
    have hmark : ∀ r ∈ table, Same (mark r.cleared) r ∧ HopKept env (mark r.cleared) r :=
      fun r hr => ⟨hsame' r hr, hhop hreach _ (List.mem_map_of_mem hr)⟩
    rw [hbestusable] at hbest
    cases hb : bestOf env (usable env dest interfaceId predicate) table with
    | none =>
      rw [hb] at hbest
      have hfinish : finish env nb s = ⟨s.table, none, []⟩ := by
        unfold finish
        rw [hbest]
        rfl
      rw [hfinish]
      refine ⟨?_, fun p hp => ?_, fun _ => ⟨mark ∘ Route.cleared, hmark, ?_⟩⟩
      · rw [hnogood, hb]
        rfl
      · cases hp
      · rw [hb]
        exact hstable
    | some b =>
      rw [hb] at hbest
      have hmem := (bestOf_mem hb).1
      obtain ⟨g, hflagged, hroute, hfinal, hprobed⟩ := finish_some env nb
        (hfind b hmem hbest)
      rw [hreach, if_neg (by decide)] at hfinal
      refine ⟨?_, fun p hp => ?_, fun _ => ⟨g ∘ mark ∘ Route.cleared, fun r hr => ?_, ?_⟩⟩
      · rw [hroute, hnogood, hb]
        exact congrArg some (hsame' b hmem).ref
      · obtain ⟨r, hr, hrest⟩ := hprobed p hp
        exact ⟨r, hr, _, hroute, hrest⟩
      · obtain ⟨hs, hn⟩ := hmark r hr
        refine ⟨(hflagged _).same.trans hs, ?_⟩
        unfold HopKept
        rw [Function.comp_apply, (hflagged _).info]
        exact hn
      · have hend : toEnd (some (mark b.cleared)) (table.map (mark ∘ Route.cleared))
            = (toEnd (some b) table).map (mark ∘ Route.cleared) := by
          unfold toEnd
          dsimp only
          rw [(hsame' b hmem).ref]
          exact filter_ref_map (fun r hr => (hsame' r hr).ref) b.ref
        rw [hfinal, hb, hstable, hend, List.map_map]

/-! ## Many lookups -/

/-- Lookups one after the other, each with the neighbour caches of its time. -/
def lookups (env : Providers) (dest : Address) (interfaceId : Int)
    (predicate : Option Predicate) : List Neighbours → List Route → Option (List (Option Nat))
  | [], _ => some []
  | nb :: nbs, table => do
      let c ← ipv6_route_choose_next_hop env nb dest interfaceId predicate table
      let rest ← lookups env dest interfaceId predicate nbs c.table
      pure (c.route.map (·.ref) :: rest)

theorem usable_congr {r' r : Route} (h : Same r' r) (hhop : HopKept env r' r) :
    usable env dest interfaceId predicate r' = usable env dest interfaceId predicate r := by
  rcases hhop with hhop | ⟨honLink, hcache⟩
  · rw [h, hhop]
    rfl
  · have hnot : routed env dest r = false := by simp [routed, honLink, hcache]
    have hnot' : routed env dest r' = false := by
      rw [h]
      simp [routed, honLink, hcache]
    unfold usable
    rw [hnot, hnot', Bool.and_false, Bool.and_false]

theorem good_congr {r' r : Route} (h : Same r' r) (hhop : HopKept env r' r) :
    good env nb dest interfaceId predicate r' = good env nb dest interfaceId predicate r := by
  rcases hhop with hsame | ⟨honLink, hcache⟩
  · rw [h, hsame]
    rfl
  · have hnot : usable env dest interfaceId predicate r = false := by
      simp [usable, routed, honLink, hcache]
    unfold good
    rw [usable_congr h (.inr ⟨honLink, hcache⟩), hnot, Bool.false_and, Bool.false_and]

theorem perm_toEnd (b : Option Route) : (toEnd b table).Perm table := by
  cases b with
  | none => exact .refl _
  | some b =>
    have hperm := List.filter_append_perm (fun r : Route => decide (r.ref = b.ref)) table
    unfold toEnd
    simp only [ne_eq, decide_not]
    exact List.perm_append_comm.trans hperm

theorem filter_toEnd (q : Route → Bool) (b : Option Route) :
    (toEnd b table).filter q = toEnd b (table.filter q) := by
  cases b with
  | none => rfl
  | some b =>
    unfold toEnd
    rw [List.filter_append, List.filter_comm q, List.filter_comm q]

/-- The equally good routes keep their order, but for the one at the end. -/
theorem ties_toEnd (p : Route → Bool) (b : Option Route) :
    ties env p (toEnd b table) = toEnd b (ties env p table) := by
  have hall : ∀ a, (toEnd b (table.filter p)).all (fun c => decide (rank env c ≤ rank env a))
      = (table.filter p).all fun c => decide (rank env c ≤ rank env a) :=
    fun a => (perm_toEnd b).all_eq
  unfold ties greatest
  rw [filter_toEnd]
  simp only [hall]
  rw [filter_toEnd]

/-- The first route goes behind the others. -/
theorem toEnd_head {l : List Route} (hnodup : (l.map (·.ref)).Nodup) :
    (toEnd l.head? l).map (·.ref) = (l.map (·.ref)).rotate 1 := by
  cases l with
  | nil => rfl
  | cons b rest =>
    rw [List.map_cons, List.nodup_cons] at hnodup
    have hne : ∀ r ∈ rest, r.ref ≠ b.ref :=
      fun r hr heq => hnodup.1 (heq ▸ List.mem_map_of_mem hr)
    have hother : rest.filter (·.ref ≠ b.ref) = rest :=
      List.filter_eq_self.mpr fun r hr => by simpa using hne r hr
    have hself : rest.filter (·.ref = b.ref) = [] :=
      List.filter_eq_nil_iff.mpr fun r hr => by simpa using hne r hr
    unfold toEnd
    rw [List.head?_cons]
    dsimp only
    rw [List.filter_cons_of_neg (by simp), List.filter_cons_of_pos (by simp), hother, hself,
      List.map_append, List.map_cons, List.map_cons, List.rotate_cons_succ, List.rotate_zero]
    rfl

theorem getElem?_round (l : List Nat) (k : Nat) :
    (l.rotate 1)[k % l.length]? = l[(k + 1) % l.length]? := by
  by_cases hnil : l = []
  · subst hnil
    rfl
  · rw [List.getElem?_rotate (Nat.mod_lt _ (List.length_pos_of_ne_nil hnil)), Nat.mod_add_mod]

/-- **Lookups go round** the equally good routes where no router is ever reachable. -/
theorem ends_lookups {nbs : List Neighbours} (hnodup : (table.map (·.ref)).Nodup)
    (hnone : ∀ nb ∈ nbs, ∀ r ∈ table, good env nb dest interfaceId predicate r = false) :
    lookups env dest interfaceId predicate nbs table
      = some ((List.range nbs.length).map fun k =>
        ((ties env (usable env dest interfaceId predicate) table).map (·.ref))[k %
          (ties env (usable env dest interfaceId predicate) table).length]?) := by
  induction nbs generalizing table with
  | nil => rfl
  | cons nb nbs ih =>
    obtain ⟨c, hc, hchosen⟩ := ends_choose env nb dest interfaceId predicate hnodup
    have hnow := hnone nb List.mem_cons_self
    obtain ⟨m, hm, htable⟩ := hchosen.rotated hnow
    have hend : ∀ r ∈ toEnd (bestOf env (usable env dest interfaceId predicate) table) table,
        Same (m r) r ∧ HopKept env (m r) r := fun r hr => hm r (mem_toEnd.mp hr)
    have hrefs : c.table.map (·.ref)
        = (toEnd (bestOf env (usable env dest interfaceId predicate) table) table).map (·.ref) := by
      rw [htable, List.map_map]
      exact List.map_congr_left fun r hr => (hend r hr).1.ref
    have hnodup' : (c.table.map (·.ref)).Nodup := by
      rw [hrefs]
      exact ((perm_toEnd _).map _).nodup_iff.mpr hnodup
    have hlater : ∀ nb' ∈ nbs, ∀ r ∈ c.table,
        good env nb' dest interfaceId predicate r = false := by
      intro nb' hnb' r hr
      rw [htable] at hr
      obtain ⟨r', hr', rfl⟩ := List.mem_map.mp hr
      rw [good_congr (hend r' hr').1 (hend r' hr').2]
      exact hnone nb' (List.mem_cons_of_mem _ hnb') r' (mem_toEnd.mp hr')
    have hties : (ties env (usable env dest interfaceId predicate) c.table).map (·.ref)
        = ((ties env (usable env dest interfaceId predicate) table).map (·.ref)).rotate 1 := by
      have hsub : ∀ r ∈ ties env (usable env dest interfaceId predicate) (toEnd
          (bestOf env (usable env dest interfaceId predicate) table) table), (m r).ref = r.ref :=
        fun r hr => (hend r (List.mem_filter.mp (mem_greatest.mp hr).1).1).1.ref
      rw [htable, ties_map (fun r hr => usable_congr (hend r hr).1 (hend r hr).2)
        fun r hr => (hend r hr).1.rank, List.map_map]
      refine (List.map_congr_left hsub).trans ?_
      rw [ties_toEnd, ← head?_ties]
      refine toEnd_head (hnodup.sublist ?_)
      exact (List.filter_sublist.trans List.filter_sublist).map _
    have hfirst : c.route.map (·.ref)
        = ((ties env (usable env dest interfaceId predicate) table).map (·.ref))[0]? := by
      have hnogood : bestOf env (good env nb dest interfaceId predicate) table = none := by
        unfold bestOf
        rw [List.argmax_eq_none, List.filter_eq_nil_iff]
        exact fun r hr => by simp [hnow r hr]
      rw [hchosen.route, hnogood, Option.none_or, ← head?_ties, ← List.head?_eq_getElem?,
        List.head?_map]
    have hlength : (ties env (usable env dest interfaceId predicate) c.table).length
        = (ties env (usable env dest interfaceId predicate) table).length := by
      have hlen := congrArg List.length hties
      simpa using hlen
    unfold lookups
    rw [hc]
    change (do
      let rest ← lookups env dest interfaceId predicate nbs c.table
      pure (c.route.map (fun r : Route => r.ref) :: rest)) = _
    rw [ih hnodup' hlater, hties, hlength, List.length_cons, List.range_succ_eq_map]
    refine congrArg some (congrArg₂ List.cons ?_ ?_)
    · rw [hfirst]
      dsimp only
      rw [Nat.zero_mod]
    · rw [List.map_map]
      refine List.map_congr_left fun k _ => ?_
      have hround := getElem?_round
        ((ties env (usable env dest interfaceId predicate) table).map (·.ref)) k
      rw [List.length_map] at hround
      exact hround

/-- One interface, and no source route can be computed. -/
def unknownHops : Providers where
  cacheByInterfaceId := fun id => if id = 1 then some ⟨0, true⟩ else none
  predicate := fun _ => none
  rplDataRouteNextHop := some fun _ _ => none

def noNeighbours : Neighbours where
  probablyReachable := fun _ _ => false
  lookupOrCreate := fun _ _ => true

/-- A default route of this source through the router `hop`. -/
def defaultRoute (ref : Nat) (source : Source) (hop : Address) : Route where
  ref := ref
  destination := 0
  prefixLen := 0
  onLink := false
  metric := 0x80
  info := ⟨source, 0, 1, 0, hop⟩
  searchSkip := false
  probe := false
  probeTimer := 0

end NextHop
