import GrpcBench.Library.Repeats
import GrpcBench.Library.Text
import GrpcBench.Programs
import GrpcBench.Subscribe.Roles

/-!
# Core affinity

`collect/mod.rs`: `--cpu-affinity`, from its text to the core a receiver thread is pinned to.  The
text is empty, `auto`, a flat list of cores, or sections `role=list` between colons.  `auto` is laid
out for the number of cores of the host, which is an argument here; its arithmetic is on `u32`, and
an operation that overflows panics, which is `none`.

* `AffinitySpec.parse`, `AffinitySpec.fromStructured`, `AffinitySpec.autoForCoreCount`.
* `AffinityPlan.coreForSubscription`: the cores of an endpoint, in turn.
-/

namespace GrpcBench

/-- `AffinityParseError`. -/
inductive AffinityParseError where
  | mixed
  | emptySection
  | unknownRole (role : String)
  | duplicateRole (role : String)
  | invalidCore (core label : String)
  | singleCoreOnly (role : String)
  | duplicateCore (core : UInt32)
  deriving DecidableEq, Repr

/-- The `#[error]` text. -/
def AffinityParseError.message : AffinityParseError → String
  | .mixed => "--cpu-affinity has mixed or malformed sections (use either `2,3,4,5` or " ++
    "`ep1=...:ep2=...:proc=...:ctrl=...`)"
  | .emptySection => "--cpu-affinity has an empty section"
  | .unknownRole role =>
    "--cpu-affinity has unknown role `" ++ role ++ "` (expected ep1, ep2, proc, ctrl)"
  | .duplicateRole role => "--cpu-affinity has duplicate role `" ++ role ++ "`"
  | .invalidCore core label =>
    "--cpu-affinity has invalid core id `" ++ core ++ "` in section `" ++ label ++ "`"
  | .singleCoreOnly role => "--cpu-affinity role `" ++ role ++ "` accepts exactly one core"
  | .duplicateCore core => "--cpu-affinity has duplicate core " ++ toString core

/-- Parsed `--cpu-affinity` value. -/
structure AffinitySpec where
  endpoint1 : List UInt32 := []
  endpoint2 : List UInt32 := []
  processor : Option UInt32 := none
  control : Option UInt32 := none
  deriving DecidableEq, Repr

/-! ## Lists of cores -/

/-- The loop of `parse_core_list`, with the cores read so far. -/
def parseCores (label : String) (cores : List UInt32) :
    List (List Char) → Except AffinityParseError (List UInt32)
  | [] => .ok cores
  | part :: rest =>
    let t := trim part
    if t = "" then .error .emptySection
    else
      match Text.parseU32 t.toList with
      | none => .error (.invalidCore t label)
      | some n =>
        if n ∈ cores then .error (.duplicateCore n) else parseCores label (cores ++ [n]) rest

/-- `parse_core_list`. -/
def parseCoreList (value : List Char) (label : String) :
    Except AffinityParseError (List UInt32) :=
  parseCores label [] (value.splitOn ',')

namespace AffinitySpec

/-- `AffinitySpec::all_cores`. -/
def allCores (spec : AffinitySpec) : List UInt32 :=
  let out := spec.endpoint1.foldl Repeats.pushNew []
  let out := spec.endpoint2.foldl Repeats.pushNew out
  let out := match spec.processor with
    | none => out
    | some p => Repeats.pushNew out p
  match spec.control with
  | none => out
  | some c => Repeats.pushNew out c

/-! ## The flat form -/

/-- `AffinitySpec::from_flat_vec`. -/
def fromFlatVec (cores : List UInt32) : Except AffinityParseError AffinitySpec :=
  match Repeats.firstRepeated [] cores with
  | some c => .error (.duplicateCore c)
  | none =>
    .ok <| match cores with
      | [] => {}
      | [c] => { endpoint1 := [c], endpoint2 := [c], processor := some c }
      | [a, b] => { endpoint1 := [a], endpoint2 := [b] }
      | [a, b, p] => { endpoint1 := [a], endpoint2 := [b], processor := some p }
      | a :: b :: p :: c :: _ =>
        { endpoint1 := [a], endpoint2 := [b], processor := some p, control := some c }

/-- `AffinitySpec::from_flat_str`. -/
def fromFlatStr (raw : List Char) : Except AffinityParseError AffinitySpec :=
  match parseCoreList raw "flat" with
  | .error e => .error e
  | .ok cores => fromFlatVec cores

/-! ## The structured form -/

/-- The variables of the loop over the sections. -/
structure Sections where
  me : AffinitySpec := {}
  seenEp1 : Bool := false
  seenEp2 : Bool := false
  seenProc : Bool := false
  seenCtrl : Bool := false
  deriving DecidableEq, Repr

/-- The head of the loop body: the role text and the cores of a section. -/
def readSection (sect : List Char) : Except AffinityParseError (String × List UInt32) :=
  let trimmed := (trim sect).toList
  if trimmed = [] then .error .emptySection
  else
    match Text.splitOnce '=' trimmed with
    | none => .error .mixed
    | some (role, value) =>
      let role := trim role
      match parseCoreList (trim value).toList role with
      | .error e => .error e
      | .ok cores => if cores = [] then .error .emptySection else .ok (role, cores)

/-- The `match role` of the loop body. -/
def Sections.assign (s : Sections) (role : String) (cores : List UInt32) :
    Except AffinityParseError Sections :=
  match role with
  | "ep1" =>
    if s.seenEp1 then .error (.duplicateRole "ep1")
    else .ok { s with seenEp1 := true, me := { s.me with endpoint1 := cores } }
  | "ep2" =>
    if s.seenEp2 then .error (.duplicateRole "ep2")
    else .ok { s with seenEp2 := true, me := { s.me with endpoint2 := cores } }
  | "proc" =>
    if s.seenProc then .error (.duplicateRole "proc")
    else if cores.length ≠ 1 then .error (.singleCoreOnly "proc")
    else .ok { s with seenProc := true, me := { s.me with processor := cores.head? } }
  | "ctrl" =>
    if s.seenCtrl then .error (.duplicateRole "ctrl")
    else if cores.length ≠ 1 then .error (.singleCoreOnly "ctrl")
    else .ok { s with seenCtrl := true, me := { s.me with control := cores.head? } }
  | other => .error (.unknownRole other)

/-- The loop body. -/
def Sections.step (s : Sections) (sect : List Char) : Except AffinityParseError Sections :=
  match readSection sect with
  | .error e => .error e
  | .ok (role, cores) => s.assign role cores

/-- The list the check across the roles goes through. -/
def flat (spec : AffinitySpec) : List UInt32 :=
  spec.endpoint1 ++ spec.endpoint2 ++ spec.processor.toList ++ spec.control.toList

/-- `AffinitySpec::from_structured`. -/
def fromStructured (raw : List Char) : Except AffinityParseError AffinitySpec :=
  match (raw.splitOn ':').foldlM Sections.step {} with
  | .error e => .error e
  | .ok s =>
    match Repeats.firstRepeated [] s.me.flat with
    | some c => .error (.duplicateCore c)
    | none => .ok s.me

/-! ## The layout for a host -/

/-- `u32::try_from(n).unwrap_or(u32::MAX)`. -/
def u32OfUsize (n : ℕ) : UInt32 :=
  if n < UInt32.size then UInt32.ofNat n else UInt32.ofNat (UInt32.size - 1)

/-- `a - b` on `u32`. -/
def checkedSub (a b : UInt32) : Option UInt32 :=
  if b ≤ a then some (a - b) else none

/-- `a + b` on `u32`. -/
def checkedAdd (a b : UInt32) : Option UInt32 :=
  if a.toNat + b.toNat < UInt32.size then some (a + b) else none

/-- `(lo..hi).collect()`. -/
def coreRange (lo hi : UInt32) : List UInt32 :=
  (List.range' lo.toNat (hi.toNat - lo.toNat)).map UInt32.ofNat

/-- `(lo..=hi).collect()`. -/
def coreRangeInclusive (lo hi : UInt32) : List UInt32 :=
  (List.range' lo.toNat (hi.toNat + 1 - lo.toNat)).map UInt32.ofNat

/-- `AffinitySpec::auto_for_core_count`; `none` is an overflow. -/
def autoForCoreCount (nproc : ℕ) : Option AffinitySpec :=
  if nproc < 6 then some {}
  else do
    let last ← checkedSub (u32OfUsize nproc) 1
    let controlCore := last
    let receiverStart : UInt32 := 2
    let receiverEndInclusive ← checkedSub last 1
    let receiverCount ← checkedAdd (← checkedSub receiverEndInclusive receiverStart) 1
    let half := receiverCount / 2
    let splitAt ← checkedAdd receiverStart half
    return {
      endpoint1 := coreRange receiverStart splitAt
      endpoint2 := coreRangeInclusive splitAt receiverEndInclusive
      processor := none
      control := some controlCore }

/-- `AffinitySpec::auto_from_nproc`, on what `available_parallelism` returns. -/
def autoFromNproc (availableParallelism : Option ℕ) : Option AffinitySpec :=
  autoForCoreCount (availableParallelism.getD 4)

/-- `AffinitySpec::parse`; `none` is a panic. -/
def parse (availableParallelism : Option ℕ) (raw : String) :
    Option (Except AffinityParseError AffinitySpec) :=
  let trimmed := (trim raw.toList).toList
  if trimmed = [] then some (.ok {})
  else if trimmed.map Char.toLower = "auto".toList then
    (autoFromNproc availableParallelism).map .ok
  else if '=' ∈ trimmed then some (fromStructured trimmed)
  else some (fromFlatStr trimmed)

end AffinitySpec

/-! ## The plan -/

/-- Plan-time receiver task assignment of CPU cores. -/
structure AffinityPlan where
  endpoint1Cores : List UInt32
  endpoint2Cores : List UInt32
  processorCore : Option UInt32
  controlCore : Option UInt32

namespace AffinityPlan

/-- `AffinityPlan::from_spec`. -/
def fromSpec (spec : AffinitySpec) : AffinityPlan where
  endpoint1Cores := spec.endpoint1
  endpoint2Cores := spec.endpoint2
  processorCore := spec.processor
  controlCore := spec.control

/-- `AffinityPlan::from_cli`. -/
def fromCli : List UInt32 → AffinityPlan
  | [] => ⟨[], [], none, none⟩
  | [c] => ⟨[c], [c], some c, none⟩
  | [a, b] => ⟨[a], [b], none, none⟩
  | [a, b, p] => ⟨[a], [b], some p, none⟩
  | a :: b :: p :: c :: _ => ⟨[a], [b], some p, some c⟩

/-- The cores of an endpoint. -/
def coresOf (plan : AffinityPlan) : EndpointRole → List UInt32
  | .one => plan.endpoint1Cores
  | .two => plan.endpoint2Cores

/-- `AffinityPlan::core_for_subscription`. -/
def coreForSubscription (plan : AffinityPlan) (role : SubscriptionRole) (idxInEndpoint : ℕ) :
    Option UInt32 :=
  let cores := plan.coresOf role.endpoint
  if cores.isEmpty then none else cores[idxInEndpoint % cores.length]?

end AffinityPlan

end GrpcBench
