import WisunModem.Mpl

/-!
# Control messages, timers and runs of the forwarder

`mpl_send_control` and `mpl_control_handler` write and read a control message in
memory, so that a write beside the place reserved shows.  The two bit functions
come from a library: `Bits` is what they promise of the bits of a byte.

`step` performs one act of the environment on the forwarder.  It has no answer
where the code would not come back: `process` of a message longer than all the
room there is, and a control message with a bitmap of 32 bytes, over which the
8-bit counter never gets.
-/

namespace Mpl

/-- `bit_set` and `bit_test` within a byte. -/
structure Bits where
  set : UInt8 → Nat → UInt8
  test : UInt8 → Nat → Bool
  test_zero : ∀ i < 8, test 0 i = false
  test_set : ∀ b, ∀ i < 8, ∀ j < 8, test (set b i) j = (decide (i = j) || test b j)

/-- The bytes a control message is written to or read from. -/
abbrev Bytes := Nat → UInt8

namespace Bytes

def write (mem : Bytes) (p : Nat) (b : UInt8) : Bytes := fun q => if q = p then b else mem q

/-- `memcpy` of a list to `p`. -/
def copy (mem : Bytes) (p : Nat) (bytes : List UInt8) : Bytes :=
  fun q => if p ≤ q then bytes.getD (q - p) (mem q) else mem q

/-- `memset` to 0. -/
def clear (mem : Bytes) (p len : Nat) : Bytes :=
  fun q => if p ≤ q ∧ q < p + len then 0 else mem q

/-- `bit_set` -/
def bitSet (bits : Bits) (mem : Bytes) (p i : Nat) : Bytes :=
  mem.write (p + i / 8) (bits.set (mem (p + i / 8)) (i % 8))

/-- `bit_test` -/
def bitTest (bits : Bits) (mem : Bytes) (p i : Nat) : Bool :=
  bits.test (mem (p + i / 8)) (i % 8)

/-- `len` bytes from `p` on. -/
def read (mem : Bytes) (p len : Nat) : List UInt8 := (List.range len).map fun j => mem (p + j)

end Bytes

/-! ## Sending -/

/-- `sequence - min_sequence` -/
def Seed.offset (seed : Seed) (m : Message) : Nat := (m.sequence - seed.minSequence).toNat

/-- `mpl_seed_bm_len` -/
def Seed.bmLen (seed : Seed) : Nat :=
  match seed.messages.getLast? with
  | some last => seed.offset last / 8 + 1
  | none => 0

/-- Length of the identifier written, for the source address `src`. -/
def Seed.idLen (seed : Seed) (src : Option SeedId) : Nat :=
  if seed.id.length = 16 ∧ src = some seed.id then 0 else seed.id.length

/-- `mpl_seed_info_size` -/
def Seed.infoSize (seed : Seed) (src : Option SeedId) : Nat := 2 + seed.idLen src + seed.bmLen

/-- The type of an identifier of this length, where it has one. -/
def idTypeOf : Nat → Option SeedIdType
  | 0 => some .ipv6Src
  | 2 => some .bits16
  | 8 => some .bits64
  | 16 => some .bits128
  | _ => none

/-- The S field. -/
def SeedIdType.code : SeedIdType → UInt8
  | .ipv6Src => 0
  | .bits16 => 1
  | .bits64 => 2
  | .bits128 => 3

/-- Write `memset` and the bits of the messages at `p`. -/
def Seed.writeBitmap (bits : Bits) (mem : Bytes) (p : Nat) (seed : Seed) : Bytes :=
  seed.messages.foldl (fun mem m => mem.bitSet bits p (seed.offset m)) (mem.clear p seed.bmLen)

/-- `mpl_write_seed_info` -/
def writeSeedInfo (bits : Bits) (src : Option SeedId) (mem : Bytes) (p : Nat) (seed : Seed) :
    Bytes × Nat :=
  let mem := mem.write p (UInt8.ofNat seed.minSequence.toNat)
  let mem := mem.write (p + 1) (UInt8.ofNat (seed.bmLen * 4))
  match idTypeOf (seed.idLen src) with
  | none => (mem, p)
  | some type =>
    let mem := mem.write (p + 1) (mem (p + 1) ||| type.code)
    let mem := mem.copy (p + 2) (seed.id.take (seed.idLen src))
    let p := p + 2 + seed.idLen src
    (seed.writeBitmap bits mem p, p + seed.bmLen)

/-- The source address `mpl_send_control` picks: the first identifier which is an
address of the interface. -/
def Domain.controlSource (assigned : SeedId → Bool) (dom : Domain) : Option SeedId :=
  (dom.seeds.find? fun seed => decide (seed.id.length = 16) && assigned seed.id).map Seed.id

/-- The size `mpl_send_control` asks for. -/
def controlSize (assigned : SeedId → Bool) : List Seed → Option SeedId → Nat
  | [], _ => 0
  | seed :: rest, src =>
      let src := src <|> if seed.id.length = 16 ∧ assigned seed.id then some seed.id else none
      seed.infoSize src + controlSize assigned rest src

/-- The bytes `mpl_send_control` writes from `p` on, and where they end. -/
def writeSeeds (bits : Bits) (src : Option SeedId) : Bytes → Nat → List Seed → Bytes × Nat
  | mem, p, [] => (mem, p)
  | mem, p, seed :: rest =>
      let (mem, p) := writeSeedInfo bits src mem p seed
      writeSeeds bits src mem p rest

/-! ## Receiving -/

def idTypeOfCode (code : Nat) : SeedIdType :=
  match code with
  | 0 => .ipv6Src
  | 1 => .bits16
  | 2 => .bits64
  | _ => .bits128

/-- The sequence numbers a bitmap names. -/
def named (bits : Bits) (mem : Bytes) (p bmLen : Nat) (minSeqno : Seq) : List Seq :=
  ((List.range (8 * bmLen)).filter fun i => mem.bitTest bits p i).map fun i =>
    minSeqno + BitVec.ofNat 8 i

/-- What a record marks in the seed it is about. -/
def Seed.mark (colour : Bool) (minSeqno : Seq) (names : List Seq) (seed : Seed) : Seed :=
  { seed with
    colour
    messages := seed.messages.map fun m =>
      if serialGreater minSeqno m.sequence || names.contains m.sequence then { m with colour }
      else m }

/-- A record names something the seed does not have. -/
def Seed.lacks (names : List Seq) (seed : Seed) : Bool :=
  names.any fun q => (seed.bufferLookup q).isNone && serialGreater q seed.minSequence

/-- The loop of `mpl_control_handler` over the records from `p` to `fin`, with
whether they have new data. -/
def scanControl (bits : Bits) (mem : Bytes) (fin : Nat) (source : SeedId) :
    Nat → Nat → Domain → Bool → Option (Domain × Bool)
  | 0, _, dom, they => some (dom, they)
  | fuel + 1, p, dom, they =>
    if fin ≤ p then some (dom, they)
    -- "MPL control error"
    else if fin - p < 2 then some (dom, they)
    else
      let minSeqno := BitVec.ofNat 8 (mem p).toNat
      let bmLen := (mem (p + 1)).toNat / 4
      let type := idTypeOfCode ((mem (p + 1)).toNat % 4)
      let p := p + 2
      if 32 < bmLen ∨ fin - p < type.len + bmLen then some (dom, they)
      else
        let id := if type = .ipv6Src then source else mem.read p type.len
        let p := p + type.len
        match dom.seedLookup id with
        | none => scanControl bits mem fin source fuel (p + bmLen) dom true
        | some seed =>
          if bmLen = 32 then none
          else
            let names := named bits mem p bmLen minSeqno
            scanControl bits mem fin source fuel (p + bmLen)
              (dom.updateSeed id (Seed.mark dom.colour minSeqno names))
              (they || seed.lacks names)

/-- Something in the domain was not mentioned. -/
def Domain.unmentioned (dom : Domain) : Bool :=
  dom.seeds.any fun seed =>
    seed.colour != dom.colour || seed.messages.any fun m => m.colour != dom.colour

/-- Give every seed and message the colour of the domain, and start the messages
again which did not have it. -/
def Domain.sweep (env : Env) (dom : Domain) : Domain :=
  { dom with
    seeds := dom.seeds.map fun seed =>
      { seed with
        colour := dom.colour
        messages := seed.messages.map fun m =>
          if m.colour != dom.colour then
            { m.inconsistent env dom.dataTrickleParams seed.id with colour := dom.colour }
          else m } }

/-- What `mpl_control_handler` finds out, and the domain it leaves. -/
structure Heard where
  they : Bool
  we : Bool
  domain : Domain
  deriving DecidableEq, Repr

/-- `mpl_control_handler` of the bytes from `p` to `fin`. -/
def controlHandler (bits : Bits) (env : Env) (mem : Bytes) (p fin : Nat) (source : SeedId)
    (dom : Domain) : Option Heard :=
  (scanControl bits mem fin source (fin - p) p { dom with colour := !dom.colour } false).map
    fun (dom, they) =>
      let we := dom.unmentioned
      let dom := dom.sweep env
      { they, we,
        domain := { dom with
          trickle :=
            if they || we then
              dom.trickle.inconsistentHeard dom.controlTrickleParams env.controlTime
            else dom.trickle.consistentHeard } }

/-! ## Timers -/

/-- `message_age_limit`, in tenths of a second. -/
def Domain.ageLimit (dom : Domain) : Nat :=
  min (dom.seedSetEntryLifetime * 10) maxBufferedMessageLifetime

/-- A message the slow timer deletes if it is the first. -/
def State.outdated (s : State) (dom : Domain) (m : Message) : Bool :=
  !m.trickle.running dom.dataTrickleParams && decide (dom.ageLimit ≤ s.age m / 10)

/-- Delete outdated messages from the front, moving `min_sequence` behind each. -/
def ageOut (old : Message → Bool) : Seq → List Message → Seq × List Message
  | minSequence, [] => (minSequence, [])
  | minSequence, m :: rest =>
      if old m then ageOut old (m.sequence + 1) rest else (minSequence, m :: rest)

/-- The slow timer at one seed: what stays of it. -/
def Seed.slow (old : Message → Bool) (seconds : Nat) (seed : Seed) : Option Seed :=
  if seconds < seed.lifetime then
    let (minSequence, messages) := ageOut old seed.minSequence seed.messages
    some { seed with lifetime := seed.lifetime - seconds, minSequence, messages }
  else none

/-- The messages the slow timer deletes from a seed. -/
def Seed.slowDeleted (old : Message → Bool) (seconds : Nat) (seed : Seed) : List Message :=
  if seconds < seed.lifetime then seed.messages.takeWhile old else seed.messages

/-- `mpl_slow_timer` -/
def State.slowTimer (s : State) (seconds : Nat) : State :=
  State.release
    { s with domains := s.domains.map fun dom =>
        { dom with seeds := dom.seeds.filterMap (Seed.slow (s.outdated dom) seconds) } }
    (s.domains.flatMap fun dom =>
      dom.seeds.flatMap (Seed.slowDeleted (s.outdated dom) seconds))

/-- `mpl_fast_timer2` -/
def State.fastTimer (env : Env) (s : State) : State :=
  { s with domains := s.domains.map fun dom =>
      { dom with
        trickle := dom.trickle.timer dom.controlTrickleParams 1 env.controlTime
        seeds := dom.seeds.map fun seed =>
          { seed with messages := seed.messages.map fun m =>
              { m with trickle :=
                  m.trickle.timer dom.dataTrickleParams 1 (env.time seed.id m.sequence) } } } }

/-! ## Steps -/

/-- What a domain is created with. -/
structure DomainConfig where
  key : Nat
  realmScope : Bool
  proactiveForwarding : Bool
  seedSetEntryLifetime : Nat
  dataTrickleParams : TrickleParams
  controlTrickleParams : TrickleParams

/-- `mpl_domain_create` -/
def DomainConfig.domain (cfg : DomainConfig) (env : Env) : Domain where
  key := cfg.key
  realmScope := cfg.realmScope
  colour := false
  proactiveForwarding := cfg.proactiveForwarding
  seedSetEntryLifetime := cfg.seedSetEntryLifetime
  seeds := []
  trickle := ((⟨0, 0, 0, 0, 0⟩ : Trickle).start env.controlInterval env.controlTime).stop
  dataTrickleParams := cfg.dataTrickleParams
  controlTrickleParams := cfg.controlTrickleParams

/-- Every message of a list of domains. -/
def allMessages (domains : List Domain) : List Message :=
  domains.flatMap fun dom => dom.seeds.flatMap Seed.messages

/-- Delete the seeds of some domains (`mpl_clear_realm_scope_seeds`, and the first
half of `mpl_domain_delete`). -/
def State.clearSeeds (s : State) (p : Domain → Bool) : State :=
  State.release
    { s with domains := s.domains.map fun dom => if p dom then { dom with seeds := [] } else dom }
    (allMessages (s.domains.filter p))

/-- `mpl_domain_delete` -/
def State.domainDelete (s : State) (key : Nat) : State :=
  { s.clearSeeds (fun dom => dom.key == key) with
    domains := (s.clearSeeds fun dom => dom.key == key).domains.filter fun dom => dom.key != key }

inductive Act
  | domainCreate (env : Env) (cfg : DomainConfig)
  | domainDelete (key : Nat)
  /-- `mpl_domain_change_timing` -/
  | changeTiming (key : Nat) (data : TrickleParams) (lifetime : Nat)
  | clearRealmScope
  | data (env : Env) (key : Nat) (buf : Data)
  | control (env : Env) (key : Nat) (mem : Bytes) (p fin : Nat) (source : SeedId)
  | slowTimer (seconds : Nat)
  | fastTimer (env : Env)
  | tick

def step (bits : Bits) (s : State) : Act → Option State
  | .domainCreate env cfg =>
      if (s.lookup cfg.key).isSome then some s
      else some { s with domains := s.domains ++ [cfg.domain env] }
  | .domainDelete key => some (s.domainDelete key)
  | .changeTiming key data lifetime =>
      some (s.update key fun dom =>
        { dom with dataTrickleParams := data, seedSetEntryLifetime := lifetime })
  | .clearRealmScope => some (s.clearSeeds Domain.realmScope)
  | .data env key buf => (s.process env key buf).map Prod.snd
  | .control env key mem p fin source =>
      match s.lookup key with
      | none => some s
      | some dom =>
        (controlHandler bits env mem p fin source dom).map fun heard =>
          s.update key fun _ => heard.domain
  | .slowTimer seconds => some (s.slowTimer seconds)
  | .fastTimer env => some (s.fastTimer env)
  | .tick => some { s with ticks := s.ticks + 1 }

end Mpl
