import HostServices.Lib.Columns
import Mathlib.Algebra.Group.Int.Defs
import Mathlib.Data.List.Nodup

/-!
# chrony's reports (`system-metrics/src/chrony.rs`)

`chronyc -c` prints a table of sources and a table of what it knows about their authentication.
The producer reads both, and reports on each configured provider what the rows of its hostname
say. A row is a source's only by its name: the tables need not agree in order, nor in which
sources they have.

- `statuses`: the source's function;
- `SourceRow`, `AuthRow`: what chrony prints;
- `parseSources_print`, `parseAuthdata_print`: what is read back of it;
- `reported_by_name`: what is reported on each provider.

How `f64` reads a number, and what its powers of two are, is left open.
-/

namespace HostServices.SystemMetrics.Chrony

open HostServices.Lib

variable {F : Type}

/-! ## Columns -/

/-- `parse::<f64>` and `2f64.powi`. -/
structure Floats (F : Type) where
  parse : String → Option F
  powerOfTwo : Int → F

/-- `NEVER_SECONDS` -/
def neverSeconds : Nat := 2 ^ 32 - 1

/-- `interval_seconds`: seconds, unless it is the value for never. -/
def intervalSeconds (raw : List Char) : Option Nat :=
  (parseUnsigned (2 ^ 64) (String.ofList (trim raw))).bind fun seconds =>
    if seconds = neverSeconds then none else some seconds

/-- The register is printed as an octal number. -/
def parseReach (raw : List Char) : Option Nat := fromStrRadix 8 256 (String.ofList (trim raw))

/-- `state_name` -/
def stateName (raw : List Char) : Option String :=
  match trim raw with
  | ['*'] => some "selected"
  | ['+'] => some "combined"
  | ['-'] => some "selectable"
  | ['x'] => some "falseticker"
  | ['~'] => some "jittery"
  | ['?'] => some "unselectable"
  | _ => none

/-- `auth_mode_name` -/
def authModeName (raw : List Char) : Option String :=
  match trim raw with
  | ['N', 'T', 'S'] => some "nts"
  | ['S', 'K'] => some "symmetric"
  | ['-'] => some "none"
  | _ => none

/-- `parse::<i64>` of a column. -/
def number (raw : List Char) : Option Int64 := parseI64 (String.ofList (trim raw))

/-- `parse::<i32>` of the column, as an exponent. -/
def pollSeconds (floats : Floats F) (raw : List Char) : Option F :=
  (((number raw).map Int64.toInt).filter fun log => -2 ^ 31 ≤ log ∧ log < 2 ^ 31).map
    floats.powerOfTwo

/-! ## Rows -/

/-- `Source`: what a row of `chronyc sources` says. -/
structure Source (F : Type) where
  name : String
  state : Option String
  stratum : Option Int64
  pollSeconds : Option F
  reach : Option Nat
  lastRxSeconds : Option Nat
  offsetSeconds : Option F

/-- `AuthData`: what a row of `chronyc authdata` says. -/
structure AuthData where
  name : String
  mode : Option String
  keyId : Option Int64
  lastKeSeconds : Option Nat
  keAttempts : Option Int64
  naks : Option Int64
  cookies : Option Int64

/-- `fields`: the columns of a row. -/
def fields (line : List Char) : List (List Char) := line.splitOn ','

/-- The row as the loop of `parse_sources` reads it; a short one is left out. -/
def readSource (floats : Floats F) (line : List Char) : Option (Source F) :=
  match fields line with
  | _ :: state :: name :: stratum :: poll :: reach :: lastRx :: offset :: _ =>
    some {
      name := String.ofList (trim name)
      state := stateName state
      stratum := number stratum
      pollSeconds := pollSeconds floats poll
      reach := parseReach reach
      lastRxSeconds := intervalSeconds lastRx
      offsetSeconds := floats.parse (String.ofList (trim offset)) }
  | _ => none

/-- `parse_sources` -/
def parseSources (floats : Floats F) (text : List Char) : List (Source F) :=
  (lines text).filterMap (readSource floats)

/-- The row as the loop of `parse_authdata` reads it; a short one is left out. -/
def readAuthData (line : List Char) : Option AuthData :=
  match fields line with
  | name :: mode :: keyId :: _ :: _ :: lastKe :: attempts :: naks :: cookies :: _ =>
    some {
      name := String.ofList (trim name)
      mode := authModeName mode
      keyId := number keyId
      lastKeSeconds := intervalSeconds lastKe
      keAttempts := number attempts
      naks := number naks
      cookies := number cookies }
  | _ => none

/-- `parse_authdata` -/
def parseAuthdata (text : List Char) : List AuthData := (lines text).filterMap readAuthData

/-! ## Statuses -/

/-- A configured provider, and the host that is asked for its time. -/
structure Provider where
  name : String
  hostname : String
  operator : String

/-- `Status`: everything reported about one provider. -/
structure Status (F : Type) where
  reachable : Option Bool := none
  reach : Option Nat := none
  state : Option String := none
  stratum : Option Int64 := none
  pollSeconds : Option F := none
  lastRxSeconds : Option Nat := none
  offsetSeconds : Option F := none
  authMode : Option String := none
  ntsKeCount : Option Int64 := none
  ntsKeAttempts : Option Int64 := none
  ntsLastKeSeconds : Option Nat := none
  ntsCookies : Option Int64 := none
  ntsNaks : Option Int64 := none

/-- What the two rows of a provider make of its status. -/
def statusOf (source : Option (Source F)) (auth : Option AuthData) : Status F where
  reachable := (source.bind (·.reach)).map (· ≠ 0)
  reach := source.bind (·.reach)
  state := source.bind (·.state)
  stratum := source.bind (·.stratum)
  pollSeconds := source.bind (·.pollSeconds)
  lastRxSeconds := source.bind (·.lastRxSeconds)
  offsetSeconds := source.bind (·.offsetSeconds)
  authMode := auth.bind (·.mode)
  ntsKeCount := auth.bind (·.keyId)
  ntsKeAttempts := auth.bind (·.keAttempts)
  ntsLastKeSeconds := auth.bind (·.lastKeSeconds)
  ntsCookies := auth.bind (·.cookies)
  ntsNaks := auth.bind (·.naks)

/-- `statuses`: one for each provider, in their order. -/
def statuses (floats : Floats F) (providers : List Provider) (sources authdata : List Char) :
    List (Status F) :=
  let sources := parseSources floats sources
  let authdata := parseAuthdata authdata
  providers.map fun provider =>
    statusOf (sources.find? (·.name = provider.hostname))
      (authdata.find? (·.name = provider.hostname))

/-! ## What chrony prints -/

/-- What chrony makes of a source. -/
inductive SelectState
  | selected | combined | selectable | falseticker | jittery | unselectable
  deriving DecidableEq, Repr

/-- How chronyc prints it. -/
def SelectState.symbol : SelectState → Char
  | .selected => '*'
  | .combined => '+'
  | .selectable => '-'
  | .falseticker => 'x'
  | .jittery => '~'
  | .unselectable => '?'

/-- What it is called in the record. -/
def SelectState.label : SelectState → String
  | .selected => "selected"
  | .combined => "combined"
  | .selectable => "selectable"
  | .falseticker => "falseticker"
  | .jittery => "jittery"
  | .unselectable => "unselectable"

/-- How a source is authenticated. -/
inductive AuthMode
  | nts | symmetric | off
  deriving DecidableEq, Repr

/-- How chronyc prints it. -/
def AuthMode.column : AuthMode → List Char
  | .nts => ['N', 'T', 'S']
  | .symmetric => ['S', 'K']
  | .off => ['-']

/-- What it is called in the record. -/
def AuthMode.label : AuthMode → String
  | .nts => "nts"
  | .symmetric => "symmetric"
  | .off => "none"

/-- A time since something happened, in 32 bits, of which the last value means never. -/
abbrev Ago := Option (Fin neverSeconds)

/-- How chronyc prints a time since something, or that it never happened. -/
def Ago.column (ago : Ago) : List Char := Nat.toDigits 10 (ago.elim neverSeconds (·.val))

/-- A row of `sources`. -/
structure SourceRow where
  mode : Char
  state : SelectState
  name : List Char
  stratum : Int64
  poll : Int64
  reach : Fin 256
  lastRx : Ago
  offset : List Char
  /-- the offset as it was measured, and the root distance -/
  more : List (List Char)
  mode_column : IsColumn [mode]
  name_column : IsColumn name
  offset_column : IsColumn offset
  more_columns : ∀ column ∈ more, IsColumn column
  poll_fits : -2 ^ 31 ≤ poll.toInt ∧ poll.toInt < 2 ^ 31

/-- The columns of a row of `chronyc -c sources`. -/
def SourceRow.columns (row : SourceRow) : List (List Char) :=
  [row.mode] :: [row.state.symbol] :: row.name :: i64Chars row.stratum :: i64Chars row.poll ::
    Nat.toDigits 8 row.reach :: row.lastRx.column :: row.offset :: row.more

/-- A row of `authdata`. -/
structure AuthRow where
  name : List Char
  mode : AuthMode
  keyId : Int64
  keyType : Int64
  keyLength : Int64
  lastKe : Ago
  attempts : Int64
  naks : Int64
  cookies : Int64
  cookieLength : Int64
  name_column : IsColumn name

/-- The columns of a row of `chronyc -c authdata`. -/
def AuthRow.columns (row : AuthRow) : List (List Char) :=
  [row.name, row.mode.column, i64Chars row.keyId, i64Chars row.keyType, i64Chars row.keyLength,
    row.lastKe.column, i64Chars row.attempts, i64Chars row.naks, i64Chars row.cookies,
    i64Chars row.cookieLength]

/-- What `chronyc -c sources` prints. -/
def printSources (rows : List SourceRow) : List Char := commaTable (rows.map (·.columns))

/-- What `chronyc -c authdata` prints. -/
def printAuthdata (rows : List AuthRow) : List Char := commaTable (rows.map (·.columns))

/-! ## It is read back -/

/-- A number is read back. -/
theorem number_i64Chars (n : Int64) : number (i64Chars n) = some n := by
  rw [number, trim_column (isColumn_i64Chars n), parseI64_i64Chars]

theorem pollSeconds_i64Chars (floats : Floats F) {n : Int64}
    (h : -2 ^ 31 ≤ n.toInt ∧ n.toInt < 2 ^ 31) :
    pollSeconds floats (i64Chars n) = some (floats.powerOfTwo n.toInt) := by
  rw [pollSeconds, number_i64Chars, Option.map_some,
    Option.filter_some_pos (p := fun log : Int => decide (-2 ^ 31 ≤ log ∧ log < 2 ^ 31))
      (decide_eq_true h), Option.map_some]

/-- The register is read back from its octal form. -/
theorem parseReach_toDigits (reach : Fin 256) :
    parseReach (Nat.toDigits 8 reach) = some reach.val := by
  have hall : ∀ n : Fin 256,
      fromStrRadix 8 256 (String.ofList (Nat.toDigits 8 n.val)) = some n.val := by
    decide +kernel
  rw [parseReach, trim_column (isColumn_toDigits (by decide) (by decide) _), hall]

/-- A time since something is read back. -/
theorem intervalSeconds_column (ago : Ago) :
    intervalSeconds ago.column = ago.map (·.val) := by
  rw [intervalSeconds, Ago.column, trim_column (isColumn_toDigits (by decide) (by decide) _)]
  cases ago with
  | none =>
    show (parseUnsigned _ (String.ofList (Nat.toDigits 10 neverSeconds))).bind _ = none
    rw [parseUnsigned_toDigits (by decide), Option.bind_some, if_pos rfl]
  | some seconds =>
    show (parseUnsigned _ (String.ofList (Nat.toDigits 10 seconds.val))).bind _ = some seconds.val
    have hlt : seconds.val < 2 ^ 64 := Nat.lt_trans seconds.isLt (by decide)
    rw [parseUnsigned_toDigits hlt, Option.bind_some, if_neg seconds.isLt.ne]

theorem stateName_symbol (state : SelectState) :
    stateName [state.symbol] = some state.label := by
  cases state <;> decide

theorem authModeName_column (mode : AuthMode) : authModeName mode.column = some mode.label := by
  cases mode <;> decide

/-- What is read of a row. -/
def SourceRow.source (floats : Floats F) (row : SourceRow) : Source F where
  name := String.ofList row.name
  state := some row.state.label
  stratum := some row.stratum
  pollSeconds := some (floats.powerOfTwo row.poll.toInt)
  reach := some row.reach.val
  lastRxSeconds := row.lastRx.map (·.val)
  offsetSeconds := floats.parse (String.ofList row.offset)

/-- What the row says. -/
def AuthRow.auth (row : AuthRow) : AuthData where
  name := String.ofList row.name
  mode := some row.mode.label
  keyId := some row.keyId
  lastKeSeconds := row.lastKe.map (·.val)
  keAttempts := some row.attempts
  naks := some row.naks
  cookies := some row.cookies

theorem Ago.isColumn (ago : Ago) : IsColumn ago.column :=
  isColumn_toDigits (by decide) (by decide) _

/-- No column of a row cuts it. -/
theorem SourceRow.isColumn (row : SourceRow) : ∀ column ∈ row.columns, IsColumn column := by
  have hstate : IsColumn [row.state.symbol] := by
    cases row.state <;> decide
  have hreach : IsColumn (Nat.toDigits 8 row.reach) := isColumn_toDigits (by decide) (by decide) _
  simp only [columns, List.forall_mem_cons]
  exact ⟨row.mode_column, hstate, row.name_column, isColumn_i64Chars _, isColumn_i64Chars _,
    hreach, row.lastRx.isColumn, row.offset_column, row.more_columns⟩

theorem AuthRow.isColumn (row : AuthRow) : ∀ column ∈ row.columns, IsColumn column := by
  have hmode : IsColumn row.mode.column := by
    cases row.mode <;> decide
  simp only [columns, List.forall_mem_cons]
  exact ⟨row.name_column, hmode, isColumn_i64Chars _, isColumn_i64Chars _, isColumn_i64Chars _,
    row.lastKe.isColumn, isColumn_i64Chars _, isColumn_i64Chars _, isColumn_i64Chars _,
    isColumn_i64Chars _, List.forall_mem_nil _⟩

/-- A row of the sources is read back. -/
theorem readSource_row (floats : Floats F) (row : SourceRow) :
    readSource floats (commaRow row.columns) = some (row.source floats) := by
  have hne : row.columns ≠ [] := List.cons_ne_nil _ _
  rw [readSource, fields, splitOn_commaRow hne row.isColumn]
  simp only [SourceRow.columns, SourceRow.source, trim_column row.name_column,
    stateName_symbol, number_i64Chars, pollSeconds_i64Chars floats row.poll_fits,
    parseReach_toDigits, intervalSeconds_column, trim_column row.offset_column]

/-- A row of the authentication data is read back. -/
theorem readAuthData_row (row : AuthRow) : readAuthData (commaRow row.columns) = some row.auth := by
  have hne : row.columns ≠ [] := List.cons_ne_nil _ _
  rw [readAuthData, fields, splitOn_commaRow hne row.isColumn]
  simp only [AuthRow.columns, AuthRow.auth, trim_column row.name_column, authModeName_column,
    number_i64Chars, intervalSeconds_column]

/-- The table of sources is read back. -/
theorem parseSources_print (floats : Floats F) (rows : List SourceRow) :
    parseSources floats (printSources rows) = rows.map (·.source floats) :=
  filterMap_lines_commaTable rows SourceRow.isColumn (readSource_row floats)

/-- The table of authentication data is read back. -/
theorem parseAuthdata_print (rows : List AuthRow) :
    parseAuthdata (printAuthdata rows) = rows.map (·.auth) :=
  filterMap_lines_commaTable rows AuthRow.isColumn readAuthData_row

/-! ## Rows by name -/

section Rows

variable {ρ : Type} {name : ρ → List Char} {rows rows' : List ρ} {hostname : String}
  {row : Option ρ}

/-- The row of a host, or that it has none. -/
def IsRowOf (name : ρ → List Char) (rows : List ρ) (hostname : String) : Option ρ → Prop
  | some row => row ∈ rows ∧ String.ofList (name row) = hostname
  | none => ∀ row ∈ rows, String.ofList (name row) ≠ hostname

/-- Names are not given twice, so any search finds the same row. -/
theorem find?_of_isRowOf (hnames : (rows.map name).Nodup) (h : IsRowOf name rows hostname row) :
    rows.find? (fun row => String.ofList (name row) = hostname) = row := by
  cases row with
  | none =>
    refine List.find?_eq_none.mpr fun row hrow hname => ?_
    exact h row hrow (of_decide_eq_true hname)
  | some row =>
    obtain ⟨hrow, hname⟩ := h
    cases hfind : rows.find? (fun row => String.ofList (name row) = hostname) with
    | none => exact absurd (decide_eq_true hname) (List.find?_eq_none.mp hfind row hrow)
    | some first =>
      have hfound := List.find?_some hfind
      have hfirst : String.ofList (name first) = hostname := of_decide_eq_true hfound
      have hsame : name first = name row := String.ofList_injective (hfirst.trans hname.symm)
      exact congrArg some
        (List.inj_on_of_nodup_map hnames (List.mem_of_find?_eq_some hfind) hrow hsame)

/-- The row that is found is that of the host. -/
theorem isRowOf_find? :
    IsRowOf name rows hostname (rows.find? fun row => String.ofList (name row) = hostname) := by
  cases hfind : rows.find? (fun row => String.ofList (name row) = hostname) with
  | none =>
    intro row hrow hname
    exact absurd (decide_eq_true hname) (List.find?_eq_none.mp hfind row hrow)
  | some row =>
    have hfound := List.find?_some hfind
    exact ⟨List.mem_of_find?_eq_some hfind, of_decide_eq_true hfound⟩

/-- The row of a host does not depend on the order of the rows. -/
theorem IsRowOf.perm (h : IsRowOf name rows hostname row) (hperm : rows'.Perm rows) :
    IsRowOf name rows' hostname row := by
  cases row with
  | none => exact fun row hrow => h row (hperm.mem_iff.mp hrow)
  | some row => exact ⟨hperm.mem_iff.mpr h.1, h.2⟩

end Rows

/-- What there is to report on a provider with these rows. -/
def reported (floats : Floats F) (source : Option SourceRow) (auth : Option AuthRow) :
    Status F where
  reachable := source.map fun row => row.reach.val ≠ 0
  reach := source.map (·.reach.val)
  state := source.map (·.state.label)
  stratum := source.map (·.stratum)
  pollSeconds := source.map fun row => floats.powerOfTwo row.poll.toInt
  lastRxSeconds := source.bind fun row => row.lastRx.map (·.val)
  offsetSeconds := source.bind fun row => floats.parse (String.ofList row.offset)
  authMode := auth.map (·.mode.label)
  ntsKeCount := auth.map (·.keyId)
  ntsKeAttempts := auth.map (·.attempts)
  ntsLastKeSeconds := auth.bind fun row => row.lastKe.map (·.val)
  ntsCookies := auth.map (·.cookies)
  ntsNaks := auth.map (·.naks)

theorem statusOf_rows (floats : Floats F) (source : Option SourceRow) (auth : Option AuthRow) :
    statusOf (source.map (·.source floats)) (auth.map (·.auth)) = reported floats source auth := by
  cases source <;> cases auth <;> rfl

/-- What is reported is what the rows say. -/
theorem statuses_print (floats : Floats F) (providers : List Provider) (sources : List SourceRow)
    (auths : List AuthRow) :
    statuses floats providers (printSources sources) (printAuthdata auths)
      = providers.map fun provider => reported floats
          (sources.find? fun row => String.ofList row.name = provider.hostname)
          (auths.find? fun row => String.ofList row.name = provider.hostname) := by
  rw [statuses, parseSources_print, parseAuthdata_print]
  refine List.map_congr_left fun provider _ => ?_
  rw [List.find?_map, List.find?_map, ← statusOf_rows]
  rfl

variable {sources : List SourceRow} {auths : List AuthRow}

/-- There is one status for each configured provider, and it reports what chrony printed in the
rows of that hostname, value by value, or nothing where there is no such row. Neither the order
of the rows nor rows of others make any difference. -/
theorem reported_by_name (floats : Floats F) (providers : List Provider)
    (hsources : (sources.map (·.name)).Nodup) (hauths : (auths.map (·.name)).Nodup) :
    (∀ i : Nat, ∀ hi : i < providers.length, ∀ source auth,
      IsRowOf (·.name) sources providers[i].hostname source →
      IsRowOf (·.name) auths providers[i].hostname auth →
      (statuses floats providers (printSources sources) (printAuthdata auths))[i]?
        = some (reported floats source auth)) ∧
    ∀ sources' auths', sources'.Perm sources → auths'.Perm auths →
      statuses floats providers (printSources sources') (printAuthdata auths')
        = statuses floats providers (printSources sources) (printAuthdata auths) := by
  constructor
  · intro i hi source auth hsource hauth
    rw [statuses_print, List.getElem?_map, List.getElem?_eq_getElem hi, Option.map_some]
    rw [find?_of_isRowOf hsources hsource, find?_of_isRowOf hauths hauth]
  · intro sources' auths' hsources' hauths'
    rw [statuses_print, statuses_print]
    refine List.map_congr_left fun provider _ => ?_
    rw [find?_of_isRowOf ((hsources'.map _).nodup_iff.mpr hsources) (isRowOf_find?.perm hsources'),
      find?_of_isRowOf ((hauths'.map _).nodup_iff.mpr hauths) (isRowOf_find?.perm hauths')]

/-! ## A host with one source -/

/-- Numbers of the sample, of which only zero is read. -/
def sampleFloats : Floats Int := ⟨fun s => if s = "0" then some 0 else none, fun n => 2 ^ n.toNat⟩

/-- `^,*,a.example,3,6,377,23,0` -/
def sampleSource : SourceRow where
  mode := '^'
  state := .selected
  name := "a.example".toList
  stratum := 3
  poll := 6
  reach := 255
  lastRx := some ⟨23, by decide⟩
  offset := ['0']
  more := []
  mode_column := by decide
  name_column := by decide
  offset_column := by decide
  more_columns := nofun
  poll_fits := by decide

/-- `a.example,NTS,4,15,256,4294967295,0,0,8,100` -/
def sampleAuth : AuthRow where
  name := "a.example".toList
  mode := .nts
  keyId := 4
  keyType := 15
  keyLength := 256
  lastKe := none
  attempts := 0
  naks := 0
  cookies := 8
  cookieLength := 100
  name_column := by decide

theorem reported_by_name_sampled :
    (statuses sampleFloats [⟨"a", "a.example", "example"⟩] (printSources [sampleSource])
      (printAuthdata [sampleAuth]))[0]?
      = some (reported sampleFloats (some sampleSource) (some sampleAuth)) := by
  have hprovider : String.ofList "a.example".toList = "a.example" := String.ofList_toList
  have hreported := @reported_by_name Int [sampleSource] [sampleAuth] sampleFloats
    [⟨"a", "a.example", "example"⟩] (List.nodup_singleton sampleSource.name)
    (List.nodup_singleton sampleAuth.name)
  exact hreported.1 0 (by decide) (some sampleSource) (some sampleAuth)
    ⟨List.mem_singleton_self _, hprovider⟩ ⟨List.mem_singleton_self _, hprovider⟩

end HostServices.SystemMetrics.Chrony
