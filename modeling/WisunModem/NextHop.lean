import Mathlib.Data.List.MinMax
import Mathlib.Tactic.Common

/-!
# The choice of a next hop

`ipv6_route_choose_next_hop` looks for the best route again and again, and sets aside each
one whose next hop is not known or whose router is not reachable, until a route is found
that can be taken.  The routers it passed over for a worse route are probed, and where no
router is reachable the route it takes goes to the end of the table.

A route is told apart by its number `ref`.  What the other modules provide stands in
`Providers`, the state of the neighbour caches in `Neighbours`.
-/

namespace NextHop

/-- `ipv6_route_src_t`. -/
inductive Source
  | any | none | static | loopback | user | aro | radv | rplDio | rplDao | rplDaoSr | rplSrh
  | rplRoot | rplInstance | rplFwdError | multicast | mpl | rip | thread | threadBorderRouter
  | threadProxiedHost | threadProxiedDuaHost | threadBbr | redirect
deriving DecidableEq, Repr

abbrev Address := BitVec 128

/-- `ipv6_route_info_t`, without the path MTU. -/
structure Info where
  source : Source
  sourceId : UInt8
  interfaceId : Int
  info : Nat
  nextHopAddr : Address
deriving DecidableEq, Repr

/-- `ipv6_route_t`; `destination` is its prefix. -/
structure Route where
  ref : Nat
  destination : Address
  prefixLen : Nat
  onLink : Bool
  metric : UInt8
  info : Info
  searchSkip : Bool
  probe : Bool
  probeTimer : UInt16
deriving DecidableEq, Repr

/-- What is read of an `ipv6_neighbour_cache_t`. -/
structure Cache where
  metric : UInt16
  probeAvoidedRouters : Bool

abbrev Predicate := Info → Bool → Bool

/-- The interfaces and what the providers of routes have registered.  The one computation
of next hops is that of `rpl_data_init_root`. -/
structure Providers where
  cacheByInterfaceId : Int → Option Cache
  predicate : Source → Option Predicate
  rplDataRouteNextHop : Option (Address → Info → Option Address)

/-- The neighbour caches at the time of a search. -/
structure Neighbours where
  probablyReachable : Int → Address → Bool
  lookupOrCreate : Int → Address → Bool

/-- `ipv6_route_probing`. -/
def ipv6_route_probing : Source → Bool
  | .radv | .aro | .rplDao | .rplDio | .rplRoot | .rplInstance => true
  | _ => false

/-- Apply `f` to the route `ref`. -/
def update (ref : Nat) (f : Route → Route) (table : List Route) : List Route :=
  table.map fun r => if r.ref = ref then f r else r

section

variable (env : Providers) (nb : Neighbours)

def ipv6_route_next_hop_computation (src : Source) : Option (Address → Info → Option Address) :=
  if src = .rplDaoSr then env.rplDataRouteNextHop else none

/-- The metric of the route and of its interface, in 16 bits. -/
def total_metric (r : Route) : UInt16 :=
  match env.cacheByInterfaceId r.info.interfaceId with
  | some cache => r.metric.toUInt16 + cache.metric
  | none => r.metric.toUInt16

def ipv6_route_same_router (a b : Route) : Bool :=
  a.ref = b.ref ∨ !a.onLink ∧ !b.onLink ∧ a.info.interfaceId = b.info.interfaceId ∧
    a.info.nextHopAddr = b.info.nextHopAddr

def ipv6_route_is_better (a b : Route) : Bool :=
  if a.prefixLen < b.prefixLen then false
  else if b.prefixLen < a.prefixLen then true
  else if b.onLink && !a.onLink then false
  else if a.onLink && !b.onLink then true
  else total_metric env a < total_metric env b

/-- `bitsequal` on the first bits of two addresses. -/
def bitsequal (a b : Address) (bits : Nat) : Bool := a >>> (128 - bits) = b >>> (128 - bits)

/-- The predicate of the provider and that of the search. -/
def valid (predicate : Option Predicate) (r : Route) : Bool :=
  let valid := match env.predicate r.info.source with
    | some f => f r.info true
    | none => true
  match predicate with
  | some f => f r.info valid
  | none => valid

/-- The route may be taken for this destination: interface, prefix and predicates. -/
def permits (dest : Address) (interfaceId : Int) (predicate : Option Predicate) (r : Route) :
    Bool :=
  (interfaceId = -1 || interfaceId = r.info.interfaceId) &&
    bitsequal dest r.destination r.prefixLen && valid env predicate r

def ipv6_route_find_best (dest : Address) (interfaceId : Int) (predicate : Option Predicate)
    (table : List Route) : Option Route :=
  table.foldl (fun best route =>
    if route.searchSkip || !permits env dest interfaceId predicate route then best
    else match best with
      | none => some route
      | some b => if ipv6_route_is_better env route b then some route else best) none

/-- The next hop of a route that is not on-link, if it is known. -/
def nextHop (dest : Address) (r : Route) : Option Address :=
  match ipv6_route_next_hop_computation env r.info.source with
  | some compute => compute dest r.info
  | none => some r.info.nextHopAddr

/-- Whether the router of a route with this next hop is taken to be reachable. -/
def routerReachable (cache : Cache) (r : Route) (hop : Address) : Bool :=
  if cache.probeAvoidedRouters && ipv6_route_probing r.info.source then
    nb.probablyReachable r.info.interfaceId hop
  else true

def Route.skip (r : Route) : Route := { r with searchSkip := true }

/-- To be probed, and not considered again. -/
def Route.pass (r : Route) : Route := { r with searchSkip := true, probe := true }

def Route.via (hop : Address) (r : Route) : Route :=
  { r with info := { r.info with nextHopAddr := hop } }

/-- A search in progress: the table and the variables of the function. -/
structure Search where
  table : List Route
  best : Option Nat
  reachable : Bool
  needToProbe : Bool

/-- What the search does with the best route that is left; `true` ends it. -/
def consider (dest : Address) (s : Search) (route : Route) : Search × Bool :=
  if route.onLink then ({ s with best := some route.ref, reachable := true }, true)
  else
    match nextHop env dest route with
    | none => ({ s with table := update route.ref Route.skip s.table }, false)
    | some hop =>
        let table := update route.ref (Route.via hop) s.table
        match env.cacheByInterfaceId route.info.interfaceId with
        | none => ({ s with table := update route.ref Route.skip table }, false)
        | some cache =>
            if routerReachable nb cache route hop then
              ({ s with table := table, best := some route.ref, reachable := true }, true)
            else
              ({ table := update route.ref Route.pass table
                 best := s.best.or (some route.ref)
                 reachable := false
                 needToProbe := true }, false)

/-- The loop; it ends since each round sets a route aside, so `fuel` is the number of
routes. -/
def searchLoop (dest : Address) (interfaceId : Int) (predicate : Option Predicate) :
    Nat → Search → Option Search
  | 0, _ => none
  | fuel + 1, s =>
      match ipv6_route_find_best env dest interfaceId predicate s.table with
      | none => some s
      | some route =>
          match consider env nb dest s route with
          | (s', true) => some s'
          | (s', false) => searchLoop dest interfaceId predicate fuel s'

/-- A table with what was probed. -/
abbrev Probed := List Route × List (Int × Address)

/-- The router of a route. -/
def Route.router (r : Route) : Int × Address := (r.info.interfaceId, r.info.nextHopAddr)

def ipv6_route_probe (route : Route) (t : Probed) : Probed :=
  match env.cacheByInterfaceId route.info.interfaceId with
  | none => t
  | some cache =>
      if !cache.probeAvoidedRouters || route.probeTimer ≠ 0 then t
      else if !nb.lookupOrCreate route.info.interfaceId route.info.nextHopAddr then t
      else (t.1.map fun r =>
        if ipv6_route_same_router r route then { r with probeTimer := 60, probe := false } else r,
        t.2 ++ [route.router])

/-- One route of the loop that probes the routers of better routes. -/
def probeOne (best : Route) (t : Probed) (ref : Nat) : Probed :=
  match t.1.find? (·.ref = ref) with
  | none => t
  | some r =>
      if !r.probe then t
      else
        let t := (update ref (fun r => { r with probe := false }) t.1, t.2)
        if !ipv6_route_same_router r best && ipv6_route_is_better env r best then
          ipv6_route_probe env nb { r with probe := false } t
        else t

/-- What a search leaves. -/
structure Choice where
  table : List Route
  route : Option Route
  probed : List (Int × Address)

/-- What follows the loop: probing, and a router that is not reachable goes to the bottom of
the list. -/
def finish (s : Search) : Choice :=
  match s.best.bind fun ref => s.table.find? (·.ref = ref) with
  | none => ⟨s.table, none, []⟩
  | some best =>
      let t : Probed :=
        if s.needToProbe then
          (s.table.map (·.ref)).foldl (probeOne env nb best) (s.table, [])
        else (s.table, [])
      let table :=
        if !s.reachable then
          t.1.filter (·.ref ≠ best.ref) ++ t.1.filter (·.ref = best.ref)
        else t.1
      ⟨table, some best, t.2⟩

def ipv6_route_choose_next_hop (dest : Address) (interfaceId : Int)
    (predicate : Option Predicate) (table : List Route) : Option Choice :=
  let start : Search := {
    table := table.map fun r => { r with searchSkip := false }
    best := none
    reachable := false
    needToProbe := false }
  (searchLoop env nb dest interfaceId predicate (table.length + 1) start).map (finish env nb)

end

end NextHop
