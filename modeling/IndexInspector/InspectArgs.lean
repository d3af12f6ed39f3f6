import IndexInspector.Bytes

/-!
# The command line of `inspect_graph`

`tests/inspect_graph.cpp` is the driver of the readers.  Its `main` scans `argv` for
seven options, settles on one input, reads its stats and runs the samplers.  This module
models the scan; `InspectGraph` models the rest of `main`.

* `stoul` is `std::stoul(s)` in base 10, and `parsePositiveSize` is the helper that wraps
  it.
* `Options` holds the seven variables `main` declares before its loop, with their initial
  values.
* `Flag` lists the options that take a value.  `Flag.store` is the branch each of them
  runs on its value: a path or a type name is stored as given, a count through
  `parse_positive_size`.
* `scanArgs` is the `for` loop over `argv[1..]`.

## Main results

* `parsePositiveSize_decimal`: `parse_positive_size` reads back every decimal number below
  `2 ^ 64`, whatever whitespace precedes it and whatever non-digit follows it.  After a `-`
  it returns the number negated modulo `2 ^ 64`, so `0` and negative counts pass the check
  the usage text calls "requires a positive number".
* `scanArgs_settings`: the scan of a command line written from the usage text applies its
  settings in order.  A value is never read as an option, a count comes back as it was
  written, a later setting overrides an earlier one, and what follows the settings is
  scanned from the options they leave.

## Design Notes

`std::stoul` is a library function, not one of the sources.  `stoul` follows the C
standard's `strtoul` (7.22.1.4) and the two exceptions `std::stoul` throws.  It skips
`isspace` characters, reads an optional sign and the longest run of decimal digits, and
negates the value in the return type after a `-`.  It throws `std::invalid_argument` when
the run is empty and `std::out_of_range` when the value exceeds `ULONG_MAX`.  The program
never calls `setlocale`, so `isspace` is the "C" locale's.  `unsigned long` and `size_t`
are both 64 bits wide, so the `static_cast` in `parse_positive_size` keeps the value.

`Setting` is written from the usage text, not from the loop.  It is the command line as
the usage line describes it, and `scanArgs_settings` links it to the loop.
-/

namespace Pipeann

/-! ### `std::stoul` -/

/-- `isspace` in the "C" locale: the space and the five controls `\t \n \v \f \r`. -/
def isCSpace (c : Char) : Bool := decide (c = ' ' ∨ 9 ≤ c.toNat ∧ c.toNat ≤ 13)

/-- The value of a run of decimal digits, most significant first. -/
def digitsValue (ds : List Char) : Nat := ds.foldl (fun v c => 10 * v + (c.toNat - '0'.toNat)) 0

/-- The optional sign of the subject sequence: whether it is `-`, and the characters after
it. -/
def splitSign : List Char → Bool × List Char
  | [] => (false, [])
  | c :: cs => if c = '-' then (true, cs) else if c = '+' then (false, cs) else (false, c :: cs)

/-- `std::stoul(s)` in base 10; `none` when it throws. -/
def stoul (s : String) : Option Nat :=
  let signed := splitSign (s.toList.dropWhile isCSpace)
  let ds := signed.2.takeWhile Char.isDigit
  if ds = [] then none
  else if 2 ^ 64 ≤ digitsValue ds then none
  else some (if signed.1 then (2 ^ 64 - digitsValue ds) % 2 ^ 64 else digitsValue ds)

/-- `parse_positive_size(s, &out)`: the value `std::stoul(s)` stores, `none` for `false`.
An `argv` entry is never null, so the null tests are left out. -/
def parsePositiveSize (s : String) : Option Nat := stoul s

/-! ### The option variables and the loop -/

/-- The variables `main` declares before its loop, with their initial values. -/
structure Options where
  graphFile : String := ""
  indexFile : String := ""
  diskIndexFile : String := ""
  dataTypeStr : String := ""
  adjacencySample : Nat := 0
  maxNeighborsPerNode : Nat := 20
  smallGraph : Nat := 0
  deriving Repr, DecidableEq

/-- The options that take a value, in the order the loop tests them. -/
inductive Flag where
  | graphFile
  | indexFile
  | diskIndex
  | dataType
  | adjacencySample
  | maxNeighbors
  | smallGraph
  deriving Repr, DecidableEq

/-- How each option is spelled on the command line. -/
def Flag.name : Flag → String
  | .graphFile => "--graph-file"
  | .indexFile => "--index-file"
  | .diskIndex => "--disk-index"
  | .dataType => "--data-type"
  | .adjacencySample => "--adjacency-sample"
  | .maxNeighbors => "--max-neighbors"
  | .smallGraph => "--small-graph"

/-- The option `arg` spells, the spellings tested in the loop's order. -/
def flagOf (arg : String) : Option Flag :=
  [Flag.graphFile, .indexFile, .diskIndex, .dataType, .adjacencySample, .maxNeighbors,
    .smallGraph].find? (·.name = arg)

/-- The branch of an option with value `v`: a path or a type name is stored as given, a count
is what `parse_positive_size` makes of it, and `none` is a count it rejects. -/
def Flag.store (o : Options) (v : String) : Flag → Option Options
  | .graphFile => some { o with graphFile := v }
  | .indexFile => some { o with indexFile := v }
  | .diskIndex => some { o with diskIndexFile := v }
  | .dataType => some { o with dataTypeStr := v }
  | .adjacencySample => (parsePositiveSize v).map fun n => { o with adjacencySample := n }
  | .maxNeighbors => (parsePositiveSize v).map fun n => { o with maxNeighborsPerNode := n }
  | .smallGraph => (parsePositiveSize v).map fun n => { o with smallGraph := n }

/-- How the loop ends: with the options when it runs out of arguments, with the usage text
for `--help` or `-h`, or with the rejection of a count. -/
inductive ArgScan where
  | options (o : Options)
  | usage
  | badNumber (flag : Flag) (val : String)

/-- The `for` loop over `argv[1..]`.  An option takes the next argument as its value only
when there is one (`i + 1 < argc`).  An option with no next argument, or an argument that is
no option, is skipped, except `--help` and `-h`, which end the loop. -/
def scanArgs (o : Options) : List String → ArgScan
  | [] => .options o
  | [arg] => if arg = "--help" ∨ arg = "-h" then .usage else .options o
  | arg :: v :: rest =>
    match flagOf arg with
    | some fl =>
      match fl.store o v with
      | some o' => scanArgs o' rest
      | none => .badNumber fl v
    | none => if arg = "--help" ∨ arg = "-h" then .usage else scanArgs o (v :: rest)

@[simp] theorem flagOf_name (fl : Flag) : flagOf fl.name = some fl := by
  cases fl <;> rfl

/-- One option with its value: the loop runs the option's branch. -/
theorem scanArgs_flag (o : Options) (fl : Flag) (v : String) (rest : List String) :
    scanArgs o (fl.name :: v :: rest) =
      match fl.store o v with
      | some o' => scanArgs o' rest
      | none => .badNumber fl v := by
  simp only [scanArgs, flagOf_name]

/-! ### Decimal text reads back -/

theorem toDigitsCore_append (fuel n : Nat) (ds : List Char) :
    Nat.toDigitsCore 10 fuel n ds = Nat.toDigitsCore 10 fuel n [] ++ ds := by
  induction fuel generalizing n ds with
  | zero => rfl
  | succ fuel ih =>
    simp only [Nat.toDigitsCore]
    split
    · rfl
    · rw [ih _ (_ :: ds), ih _ [_], List.append_assoc, List.singleton_append]

/-- The ten digit characters `Nat.repr` writes, and their values. -/
theorem digitChar_isDigit (d : Nat) (h : d < 10) :
    (Nat.digitChar d).isDigit = true ∧ (Nat.digitChar d).toNat - '0'.toNat = d := by
  have key : ∀ d : Fin 10,
      (Nat.digitChar d).isDigit = true ∧ (Nat.digitChar d).toNat - '0'.toNat = d := by decide
  exact key ⟨d, h⟩

theorem digitsValue_append_digit (ds : List Char) (c : Char) :
    digitsValue (ds ++ [c]) = 10 * digitsValue ds + (c.toNat - '0'.toNat) := by
  simp [digitsValue, List.foldl_append]

/-- The decimal digits of `n` with enough fuel: a non-empty run of digit characters whose
value is `n`. -/
theorem toDigitsCore_spec (fuel n : Nat) (h : n < fuel) :
    Nat.toDigitsCore 10 fuel n [] ≠ [] ∧
      (∀ c ∈ Nat.toDigitsCore 10 fuel n [], c.isDigit = true) ∧
      digitsValue (Nat.toDigitsCore 10 fuel n []) = n := by
  induction fuel generalizing n with
  | zero => omega
  | succ fuel ih =>
    obtain ⟨hd, hv⟩ := digitChar_isDigit (n % 10) (Nat.mod_lt _ (by decide))
    simp only [Nat.toDigitsCore]
    split
    · rename_i h0
      refine ⟨List.cons_ne_nil _ _, by simpa using hd, ?_⟩
      simp only [digitsValue, List.foldl_cons, List.foldl_nil]
      omega
    · obtain ⟨-, hall, hval⟩ := ih (n / 10) (by omega)
      rw [toDigitsCore_append]
      refine ⟨by simp, fun c hc => ?_, ?_⟩
      · rcases List.mem_append.mp hc with hc | hc
        · exact hall c hc
        · rw [List.mem_singleton.mp hc]; exact hd
      · rw [digitsValue_append_digit, hval, hv]
        omega

/-- `toString n` is a non-empty run of digits worth `n`. -/
theorem toString_spec (n : Nat) :
    (toString n).toList ≠ [] ∧ (∀ c ∈ (toString n).toList, c.isDigit = true) ∧
      digitsValue (toString n).toList = n :=
  toDigitsCore_spec (n + 1) n (Nat.lt_succ_self n)

theorem isDigit_iff (c : Char) : c.isDigit = true ↔ 48 ≤ c.toNat ∧ c.toNat ≤ 57 := by
  simp [Char.isDigit, Char.toNat, UInt32.le_def, BitVec.le_def]
  rfl

/-- A digit is no space, and no sign. -/
theorem isDigit_not_special {c : Char} (h : c.isDigit = true) :
    isCSpace c = false ∧ c ≠ '-' ∧ c ≠ '+' := by
  have := (isDigit_iff c).mp h
  refine ⟨?_, fun he => ?_, fun he => ?_⟩
  · simp only [isCSpace, decide_eq_false_iff_not, not_or, not_and, not_le]
    exact ⟨fun he => by subst he; exact absurd h (by decide), fun _ => by omega⟩
  all_goals subst he; exact absurd h (by decide)

/-- Whitespace before a non-space is skipped. -/
theorem dropWhile_isCSpace {w rest : List Char} (hw : ∀ c ∈ w, isCSpace c = true)
    (hr : ∀ c ∈ rest.head?, isCSpace c = false) : (w ++ rest).dropWhile isCSpace = rest := by
  rw [List.dropWhile_append_of_pos hw]
  cases rest with
  | nil => rfl
  | cons c cs => simp [hr c rfl]

/-- A digit run before a non-digit is the whole run. -/
theorem takeWhile_isDigit {ds rest : List Char} (hd : ∀ c ∈ ds, c.isDigit = true)
    (hr : ∀ c ∈ rest.head?, c.isDigit = false) : (ds ++ rest).takeWhile Char.isDigit = ds := by
  rw [List.takeWhile_append_of_pos hd]
  cases rest with
  | nil => simp
  | cons c cs => simp [hr c rfl]

/-- A sign, or none, before a digit. -/
theorem splitSign_sign {sgn : String} (hs : sgn = "" ∨ sgn = "+" ∨ sgn = "-") {c : Char}
    (hc : c.isDigit = true) (cs : List Char) :
    splitSign (sgn.toList ++ c :: cs) = (decide (sgn = "-"), c :: cs) := by
  obtain ⟨-, hm, hp⟩ := isDigit_not_special hc
  rcases hs with rfl | rfl | rfl <;> simp [splitSign, hm, hp]

/-- **`std::stoul` reads back the decimal text of every number**, after any whitespace and
a sign and before any non-digit: the number when it is below `2 ^ 64`, negated modulo
`2 ^ 64` after a `-`, and an exception otherwise. -/
theorem stoul_decimal (w sgn rest : String) (n : Nat) (hw : ∀ c ∈ w.toList, isCSpace c = true)
    (hs : sgn = "" ∨ sgn = "+" ∨ sgn = "-") (hr : ∀ c ∈ rest.toList.head?, c.isDigit = false) :
    stoul (w ++ sgn ++ toString n ++ rest) =
      if n < 2 ^ 64 then some (if sgn = "-" then (2 ^ 64 - n) % 2 ^ 64 else n) else none := by
  obtain ⟨hne, hall, hval⟩ := toString_spec n
  obtain ⟨c, cs, hcs⟩ := List.exists_cons_of_ne_nil hne
  have hc : c.isDigit = true := hall c (by rw [hcs]; exact List.mem_cons_self _ _)
  have hsgn : ∀ x ∈ (sgn.toList ++ c :: cs ++ rest.toList).head?, isCSpace x = false := by
    rcases hs with rfl | rfl | rfl <;> simp [(isDigit_not_special hc).1] <;> decide
  have hlist : (w ++ sgn ++ toString n ++ rest).toList =
      w.toList ++ (sgn.toList ++ c :: cs ++ rest.toList) := by
    simp only [String.toList, String.data_append] at hcs ⊢
    rw [hcs, List.append_assoc, List.append_assoc, List.append_assoc]
  rw [hcs] at hall hval
  have hsplit : splitSign ((w ++ sgn ++ toString n ++ rest).toList.dropWhile isCSpace) =
      (decide (sgn = "-"), c :: cs ++ rest.toList) := by
    rw [hlist, dropWhile_isCSpace hw hsgn, List.append_assoc]
    exact splitSign_sign hs hc (cs ++ rest.toList)
  simp only [stoul, hsplit, takeWhile_isDigit hall hr, List.cons_ne_nil, if_false, hval]
  by_cases hn : n < 2 ^ 64
  · rw [if_neg (Nat.not_le.mpr hn), if_pos hn]
    simp only [decide_eq_true_eq]
  · rw [if_pos (Nat.le_of_not_lt hn), if_neg hn]

/-- `toString n` reads back as `n` for every `n` that fits. -/
theorem stoul_toString {n : Nat} (h : n < 2 ^ 64) : stoul (toString n) = some n := by
  have := stoul_decimal "" "" "" n (by simp) (.inl rfl) (by simp)
  rw [if_pos h] at this
  simpa using this

/-- **`parse_positive_size` reads back every decimal count.**  Whatever whitespace precedes
the digits and whatever non-digit follows them, it returns the number when it is below
`2 ^ 64`, negated modulo `2 ^ 64` after a `-`, and fails otherwise.  So `0` and every
negative count pass a check the usage text calls "requires a positive number". -/
theorem parsePositiveSize_decimal (w sgn rest : String) (n : Nat)
    (hw : ∀ c ∈ w.toList, isCSpace c = true) (hs : sgn = "" ∨ sgn = "+" ∨ sgn = "-")
    (hr : ∀ c ∈ rest.toList.head?, c.isDigit = false) :
    parsePositiveSize (w ++ sgn ++ toString n ++ rest) =
      if n < 2 ^ 64 then some (if sgn = "-" then (2 ^ 64 - n) % 2 ^ 64 else n) else none :=
  stoul_decimal w sgn rest n hw hs hr

/-- `" -1x"` is read as `2 ^ 64 - 1`. -/
theorem parsePositiveSize_minusOne :
    (∀ c ∈ " ".toList, isCSpace c = true) ∧ ("-" = "" ∨ "-" = "+" ∨ "-" = "-") ∧
      (∀ c ∈ "x".toList.head?, c.isDigit = false) ∧
      parsePositiveSize (" " ++ "-" ++ toString 1 ++ "x") = some (2 ^ 64 - 1) :=
  ⟨by decide, by decide, by decide,
    (parsePositiveSize_decimal " " "-" "x" 1 (by decide) (by decide) (by decide)).trans rfl⟩

/-! ### Command lines written from the usage text -/

/-- An option of the usage line with its value, as the usage text describes it:
`--graph-file <path>`, `--index-file <path>`, `--disk-index <path>`, `--data-type <type>`,
`--adjacency-sample N`, `--max-neighbors M` and `--small-graph N`. -/
inductive Setting where
  | graphFile (path : String)
  | indexFile (path : String)
  | diskIndex (path : String)
  | dataType (type : String)
  | adjacencySample (n : Nat)
  | maxNeighbors (m : Nat)
  | smallGraph (n : Nat)

/-- The two arguments a setting is written as: the option, then its value, a count in
decimal. -/
def Setting.args : Setting → List String
  | .graphFile p => ["--graph-file", p]
  | .indexFile p => ["--index-file", p]
  | .diskIndex p => ["--disk-index", p]
  | .dataType t => ["--data-type", t]
  | .adjacencySample n => ["--adjacency-sample", toString n]
  | .maxNeighbors m => ["--max-neighbors", toString m]
  | .smallGraph n => ["--small-graph", toString n]

/-- What the usage text says a setting does: it sets its variable. -/
def Setting.apply (o : Options) : Setting → Options
  | .graphFile p => { o with graphFile := p }
  | .indexFile p => { o with indexFile := p }
  | .diskIndex p => { o with diskIndexFile := p }
  | .dataType t => { o with dataTypeStr := t }
  | .adjacencySample n => { o with adjacencySample := n }
  | .maxNeighbors m => { o with maxNeighborsPerNode := m }
  | .smallGraph n => { o with smallGraph := n }

/-- The option a setting is written with. -/
def Setting.flag : Setting → Flag
  | .graphFile _ => .graphFile
  | .indexFile _ => .indexFile
  | .diskIndex _ => .diskIndex
  | .dataType _ => .dataType
  | .adjacencySample _ => .adjacencySample
  | .maxNeighbors _ => .maxNeighbors
  | .smallGraph _ => .smallGraph

/-- The value a setting is written with. -/
def Setting.value : Setting → String
  | .graphFile p | .indexFile p | .diskIndex p | .dataType p => p
  | .adjacencySample n | .maxNeighbors n | .smallGraph n => toString n

theorem Setting.args_eq (s : Setting) : s.args = [s.flag.name, s.value] := by
  cases s <;> rfl

/-- A setting's count, if it has one, fits a `size_t`. -/
def Setting.fits : Setting → Bool
  | .adjacencySample n | .maxNeighbors n | .smallGraph n => decide (n < 2 ^ 64)
  | _ => true

/-- **The loop reads a command line written from the usage text.**  Scanning settings
written one after the other applies them in order: a value is never read as an option (a
path may be spelled `--help`), a count comes back as written, a later setting overrides an
earlier one, and the arguments after the settings are scanned from the options they
leave.  So `--help` after them prints the usage, and nothing after them is needed. -/
theorem scanArgs_settings (o : Options) (ss : List Setting) (hfit : ∀ s ∈ ss, s.fits = true)
    (rest : List String) :
    scanArgs o (ss.flatMap Setting.args ++ rest) = scanArgs (ss.foldl Setting.apply o) rest := by
  induction ss generalizing o with
  | nil => rfl
  | cons s ss ih =>
    have hs := hfit s (List.mem_cons_self _ _)
    rw [List.flatMap_cons, List.append_assoc, List.foldl_cons, Setting.args_eq, List.cons_append,
      List.cons_append, List.nil_append, scanArgs_flag,
      ← ih (s.apply o) fun t ht => hfit t (List.mem_cons_of_mem _ ht)]
    cases s <;> simp only [Setting.fits, decide_eq_true_eq] at hs <;>
      simp only [Setting.flag, Setting.value, Flag.store, Setting.apply, parsePositiveSize] <;>
      simp only [stoul_toString hs, Option.map_some']

/-- A path spelled `--help`, then a count: the path is stored and the count read. -/
theorem helpPath_settings :
    (∀ s ∈ [Setting.graphFile "--help", .adjacencySample 3], s.fits = true) ∧
      scanArgs {} ([Setting.graphFile "--help", .adjacencySample 3].flatMap Setting.args ++ []) =
        .options { graphFile := "--help", adjacencySample := 3 } :=
  ⟨by decide, scanArgs_settings {} [.graphFile "--help", .adjacencySample 3] (by decide) []⟩

end Pipeann
