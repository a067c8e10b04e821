import Mathlib.Data.List.Induction
import Teletype.Command.Arguments

/-!
# The grammar of arguments

A list of arguments is regular if each is a flag or names a program, and at most one names a
program. Whether it is does not depend on the order of the arguments; what a regular list asks for
does not either (`requested`). Reading the arguments from the left comes to the same: as long as
what was read is regular, what was gathered so far is what it asks for, and the first argument that
ends the regularity is the one that is refused.
-/

namespace Teletype.Command

/-! ## The flags and the names -/

def verboseFlags : List String := ["--verbose", "-v"]

def helpFlags : List String := ["--help", "-h"]

def flags : List String := verboseFlags ++ helpFlags

/-- The programs that are named, in order. -/
def names (args : List String) : List ProgramName := args.filterMap ProgramName.ofText?

/-- Each argument is a flag or names a program, and at most one names a program. -/
structure Regular (args : List String) : Prop where
  known : ∀ arg ∈ args, arg ∈ flags ∨ ∃ name : ProgramName, name.text = arg
  single : (names args).length ≤ 1

/-- There is something to do: help is wanted, or a program is named. -/
def HasTask (args : List String) : Prop := (∃ arg ∈ args, arg ∈ helpFlags) ∨ names args ≠ []

/-- What the arguments ask for, whatever their order. -/
def requested (args : List String) : Options where
  program? := (names args).head?
  verbose := args.any (· ∈ verboseFlags)
  help := args.any (· ∈ helpFlags)

/-- Why an argument is refused that cannot stand behind the others. -/
def refusal (before : List String) (arg : String) : Rejection :=
  if arg.toList.head? = some '-' then .unknownOption arg
  else if names before = [] then .unknownProgram arg
  else .unexpectedArgument arg

theorem ofText?_eq_some {arg : String} {name : ProgramName} :
    ProgramName.ofText? arg = some name ↔ name.text = arg := by
  constructor
  · intro h
    simpa using List.find?_some h
  · rintro rfl
    exact ProgramName.ofText?_text name

theorem ofText?_eq_none {arg : String} :
    ProgramName.ofText? arg = none ↔ ∀ name : ProgramName, name.text ≠ arg := by
  simp only [Option.eq_none_iff_forall_ne_some, ne_eq, ofText?_eq_some]

/-- No flag is the name of a program. -/
theorem ofText?_of_mem_flags {arg : String} (h : arg ∈ flags) : ProgramName.ofText? arg = none := by
  revert arg
  decide

/-- No flag asks for both. -/
theorem not_mem_helpFlags {arg : String} (h : arg ∈ verboseFlags) : arg ∉ helpFlags := by
  revert arg
  decide

theorem head?_of_mem_flags {arg : String} (h : arg ∈ flags) : arg.toList.head? = some '-' := by
  revert arg
  decide

/-- No name of a program begins with a dash. -/
theorem head?_text_ne (name : ProgramName) : name.text.toList.head? ≠ some '-' := by
  cases name <;> decide

theorem names_append (xs ys : List String) : names (xs ++ ys) = names xs ++ names ys :=
  List.filterMap_append

theorem names_concat_of_flag {arg : String} (h : arg ∈ flags) (before : List String) :
    names (before ++ [arg]) = names before := by
  simp [names, ofText?_of_mem_flags h]

theorem names_concat_text (name : ProgramName) (before : List String) :
    names (before ++ [name.text]) = names before ++ [name] := by
  simp [names, ProgramName.ofText?_text]

/-! ## Regular lists -/

/-- The front part of a regular list is regular. -/
theorem Regular.of_append {xs ys : List String} (h : Regular (xs ++ ys)) : Regular xs where
  known arg harg := h.known arg (List.mem_append_left ys harg)
  single := by
    have hsingle := h.single
    rw [names_append, List.length_append] at hsingle
    omega

theorem regular_nil : Regular [] where
  known _ h := absurd h List.not_mem_nil
  single := Nat.zero_le 1

/-- What may stand behind a regular list: a flag, or the name of a program if none is there. -/
theorem regular_concat_iff {before : List String} {arg : String} (h : Regular before) :
    Regular (before ++ [arg]) ↔
      arg ∈ flags ∨ (names before = [] ∧ ∃ name : ProgramName, name.text = arg) := by
  constructor
  · intro hlonger
    rcases hlonger.known arg (by simp) with hflag | ⟨name, rfl⟩
    · exact .inl hflag
    · have hsingle := hlonger.single
      rw [names_concat_text, List.length_append, List.length_singleton] at hsingle
      exact .inr ⟨List.eq_nil_of_length_eq_zero (by omega), name, rfl⟩
  · rintro (hflag | ⟨hnone, name, rfl⟩)
    · refine ⟨?_, by rw [names_concat_of_flag hflag]; exact h.single⟩
      exact List.forall_mem_append.2 ⟨h.known, List.forall_mem_singleton.2 (.inl hflag)⟩
    · refine ⟨?_, by rw [names_concat_text, hnone]; exact Nat.le_refl 1⟩
      exact List.forall_mem_append.2 ⟨h.known, List.forall_mem_singleton.2 (.inr ⟨name, rfl⟩)⟩

/-- A list that is not regular has a first argument that makes it so. -/
theorem exists_first_irregular {args : List String} (h : ¬ Regular args) :
    ∃ before arg after, args = before ++ arg :: after ∧ Regular before ∧
      ¬ Regular (before ++ [arg]) := by
  induction args using List.reverseRecOn with
  | nil => exact absurd regular_nil h
  | append_singleton init last ih =>
    by_cases hinit : Regular init
    · exact ⟨init, last, [], rfl, hinit, h⟩
    · obtain ⟨before, arg, after, rfl, hbefore, hfirst⟩ := ih hinit
      exact ⟨before, arg, after ++ [last], by simp, hbefore, hfirst⟩

/-! ## From the left -/

section

variable {arg : String} {before : List String}

theorem accept_verbose (h : arg ∈ verboseFlags) (o : Options) :
    o.accept arg = .ok { o with verbose := true } := by
  rw [Options.accept, if_pos (by simpa [verboseFlags] using h)]

theorem accept_help (h : arg ∈ helpFlags) (o : Options) :
    o.accept arg = .ok { o with help := true } := by
  rw [Options.accept, if_neg (by revert arg; decide), if_pos (by simpa [helpFlags] using h)]

/-- What is no flag is a name or is refused. -/
theorem accept_of_not_mem_flags (h : arg ∉ flags) (o : Options) :
    o.accept arg =
      if arg.toList.head? = some '-' then .error (.unknownOption arg)
      else if o.program?.isSome then .error (.unexpectedArgument arg)
      else match ProgramName.ofText? arg with
        | some name => .ok { o with program? := some name }
        | none => .error (.unknownProgram arg) := by
  simp only [flags, verboseFlags, helpFlags, List.cons_append, List.nil_append, List.mem_cons,
    List.not_mem_nil, or_false, not_or] at h
  obtain ⟨hverbose, hv, hhelp, hh⟩ := h
  exact (if_neg (not_or.2 ⟨hverbose, hv⟩)).trans (if_neg (not_or.2 ⟨hhelp, hh⟩))

theorem requested_concat (before : List String) (arg : String) :
    requested (before ++ [arg]) =
      { program? := (names (before ++ [arg])).head?
        verbose := (requested before).verbose || arg ∈ verboseFlags
        help := (requested before).help || arg ∈ helpFlags } := by
  simp only [requested, List.any_append, List.any_cons, List.any_nil, Bool.or_false]

/-- An argument that may stand behind what was read is accepted, and is asked for. -/
theorem accept_of_regular (hbefore : Regular before) (h : Regular (before ++ [arg])) :
    (requested before).accept arg = .ok (requested (before ++ [arg])) := by
  rw [requested_concat]
  rcases (regular_concat_iff hbefore).1 h with hflag | ⟨hnone, name, rfl⟩
  · rw [names_concat_of_flag hflag]
    rcases List.mem_append.1 hflag with hverbose | hhelp
    · rw [accept_verbose hverbose]
      simp [hverbose, not_mem_helpFlags hverbose, requested]
    · have hnot : arg ∉ verboseFlags := fun hverbose => not_mem_helpFlags hverbose hhelp
      rw [accept_help hhelp]
      simp [hhelp, hnot, requested]
  · have hnot : name.text ∉ flags := fun hflag => head?_text_ne name (head?_of_mem_flags hflag)
    have hverbose : name.text ∉ verboseFlags := fun h => hnot (List.mem_append_left _ h)
    have hhelp : name.text ∉ helpFlags := fun h => hnot (List.mem_append_right _ h)
    rw [accept_of_not_mem_flags hnot, if_neg (head?_text_ne name), names_concat_text, hnone]
    simp [requested, hnone, ProgramName.ofText?_text, hverbose, hhelp]

/-- An argument that cannot stand behind what was read is refused. -/
theorem accept_of_irregular (hbefore : Regular before) (h : ¬ Regular (before ++ [arg])) :
    (requested before).accept arg = .error (refusal before arg) := by
  rw [regular_concat_iff hbefore, not_or, not_and] at h
  obtain ⟨hflag, hname⟩ := h
  rw [accept_of_not_mem_flags hflag, refusal]
  by_cases hdash : arg.toList.head? = some '-'
  · rw [if_pos hdash, if_pos hdash]
  · rw [if_neg hdash, if_neg hdash]
    by_cases hnone : names before = []
    · have hunknown : ProgramName.ofText? arg = none := by
        simpa only [ofText?_eq_none, not_exists] using hname hnone
      simp [requested, hnone, hunknown]
    · simp [requested, hnone]

end

/-- Arguments are read one after another. -/
theorem acceptAll_append (o : Options) (xs ys : List String) :
    o.acceptAll (xs ++ ys) =
      match o.acceptAll xs with
      | .ok o => o.acceptAll ys
      | .error r => .error r := by
  induction xs generalizing o with
  | nil => rfl
  | cons arg xs ih =>
    simp only [List.cons_append, Options.acceptAll]
    cases o.accept arg with
    | ok o' => exact ih o'
    | error r => rfl

/-- **A regular list is read as what it asks for.** -/
theorem acceptAll_of_regular {args : List String} (h : Regular args) :
    ({} : Options).acceptAll args = .ok (requested args) := by
  induction args using List.reverseRecOn with
  | nil => rfl
  | append_singleton init last ih =>
    have hinit : Regular init := h.of_append
    simp only [acceptAll_append, ih hinit, Options.acceptAll, accept_of_regular hinit h]

/-- **The first argument that ends the regularity is the one that is refused**, whatever stands
behind it. -/
theorem acceptAll_of_irregular {before : List String} {arg : String} (hbefore : Regular before)
    (h : ¬ Regular (before ++ [arg])) (after : List String) :
    ({} : Options).acceptAll (before ++ arg :: after) = .error (refusal before arg) := by
  simp only [acceptAll_append, acceptAll_of_regular hbefore, Options.acceptAll,
    accept_of_irregular hbefore h]

/-- Having nothing to do is what the arguments are asked about in the end. -/
theorem hasTask_iff {args : List String} :
    HasTask args ↔ (!(requested args).help && (requested args).program?.isNone) = false := by
  simp only [HasTask, requested, Bool.and_eq_false_iff, Bool.not_eq_false', List.any_eq_true,
    decide_eq_true_eq, Option.isNone_eq_false_iff, List.isSome_head?, ne_eq]

section

variable {args : List String}

theorem parseArguments_of_task (hregular : Regular args) (htask : HasTask args) :
    parseArguments args = .ok (requested args) := by
  rw [parseArguments, acceptAll_of_regular hregular]
  simp only [hasTask_iff.1 htask, Bool.false_eq_true, if_false]

theorem parseArguments_of_idle (hregular : Regular args) (hidle : ¬ HasTask args) :
    parseArguments args = .error .missingProgram := by
  rw [hasTask_iff, Bool.not_eq_false] at hidle
  rw [parseArguments, acceptAll_of_regular hregular]
  simp only [hidle, if_true]

theorem parseArguments_of_irregular {before : List String} {arg : String} (hbefore : Regular before)
    (h : ¬ Regular (before ++ [arg])) (after : List String) :
    parseArguments (before ++ arg :: after) = .error (refusal before arg) := by
  rw [parseArguments, acceptAll_of_irregular hbefore h]

/-- **The arguments that are accepted**: those of a regular list with something to do. -/
theorem parseArguments_eq_ok_iff {options : Options} :
    parseArguments args = .ok options ↔
      Regular args ∧ HasTask args ∧ options = requested args := by
  constructor
  · intro h
    by_cases hregular : Regular args
    · by_cases htask : HasTask args
      · rw [parseArguments_of_task hregular htask] at h
        cases h
        exact ⟨hregular, htask, rfl⟩
      · rw [parseArguments_of_idle hregular htask] at h
        cases h
    · obtain ⟨before, arg, after, rfl, hbefore, hfirst⟩ := exists_first_irregular hregular
      rw [parseArguments_of_irregular hbefore hfirst] at h
      cases h
  · rintro ⟨hregular, htask, rfl⟩
    exact parseArguments_of_task hregular htask

/-- **The arguments that are rejected**: the first one that ends the regularity says why, and if
there is none, the program is missing. -/
theorem parseArguments_eq_error_iff {rejection : Rejection} :
    parseArguments args = .error rejection ↔
      (∃ before arg after, args = before ++ arg :: after ∧ Regular before ∧
        ¬ Regular (before ++ [arg]) ∧ rejection = refusal before arg) ∨
      (Regular args ∧ ¬ HasTask args ∧ rejection = .missingProgram) := by
  constructor
  · intro h
    by_cases hregular : Regular args
    · by_cases htask : HasTask args
      · rw [parseArguments_of_task hregular htask] at h
        cases h
      · rw [parseArguments_of_idle hregular htask] at h
        cases h
        exact .inr ⟨hregular, htask, rfl⟩
    · obtain ⟨before, arg, after, rfl, hbefore, hfirst⟩ := exists_first_irregular hregular
      rw [parseArguments_of_irregular hbefore hfirst] at h
      cases h
      exact .inl ⟨before, arg, after, rfl, hbefore, hfirst, rfl⟩
  · rintro (⟨before, arg, after, rfl, hbefore, hfirst, rfl⟩ | ⟨hregular, hidle, rfl⟩)
    · exact parseArguments_of_irregular hbefore hfirst after
    · exact parseArguments_of_idle hregular hidle

end

/-! ## Any order -/

/-- The same arguments, in another order, and the flags perhaps more or less often. -/
structure Rearranged (args args' : List String) : Prop where
  mem_iff : ∀ arg, arg ∈ args' ↔ arg ∈ args
  names_perm : (names args').Perm (names args)

theorem rearranged_of_perm {args args' : List String} (h : args.Perm args') :
    Rearranged args args' where
  mem_iff _ := h.symm.mem_iff
  names_perm := h.symm.filterMap _

theorem rearranged_cons_flag {flag : String} {args : List String} (h : flag ∈ flags)
    (hmem : flag ∈ args) : Rearranged args (flag :: args) where
  mem_iff arg := by
    rw [List.mem_cons, or_iff_right_of_imp]
    rintro rfl
    exact hmem
  names_perm := by
    rw [names, List.filterMap_cons_none (ofText?_of_mem_flags h)]
    exact .refl _

namespace Rearranged

variable {args args' : List String}

theorem symm (h : Rearranged args args') : Rearranged args' args where
  mem_iff arg := (h.mem_iff arg).symm
  names_perm := h.names_perm.symm

theorem regular (h : Rearranged args args') (hregular : Regular args) : Regular args' where
  known arg harg := hregular.known arg ((h.mem_iff arg).1 harg)
  single := h.names_perm.length_eq ▸ hregular.single

theorem hasTask (h : Rearranged args args') (htask : HasTask args) : HasTask args' := by
  refine htask.imp ?_ fun hnames hnil => hnames ?_
  · rintro ⟨arg, harg, hhelp⟩
    exact ⟨arg, (h.mem_iff arg).2 harg, hhelp⟩
  · exact List.nil_perm.1 (hnil ▸ h.names_perm)

/-- Since at most one of them is a name, the order does not matter. -/
theorem requested_eq (h : Rearranged args args') (hregular : Regular args) :
    requested args' = requested args := by
  have hnames : names args' = names args :=
    match hargs : names args, hregular.single with
    | [], _ => List.perm_nil.1 (hargs ▸ h.names_perm)
    | [name], _ => List.perm_singleton.1 (hargs ▸ h.names_perm)
  have hany : ∀ kind : List String, args'.any (· ∈ kind) = args.any (· ∈ kind) := fun kind => by
    rw [Bool.eq_iff_iff, List.any_eq_true, List.any_eq_true]
    simp only [h.mem_iff]
  simp only [requested, hnames, hany]

theorem parse_eq_ok (h : Rearranged args args') {options : Options}
    (hparse : parseArguments args = .ok options) : parseArguments args' = .ok options := by
  obtain ⟨hregular, htask, rfl⟩ := parseArguments_eq_ok_iff.1 hparse
  exact parseArguments_eq_ok_iff.2
    ⟨h.regular hregular, h.hasTask htask, (h.requested_eq hregular).symm⟩

end Rearranged

/-- **Arguments are accepted by their grammar, independently of their order.** They are accepted
exactly if they are a regular list with something to do, and then are read as what the list asks
for; so are the same arguments in any other order, and with a flag repeated. Otherwise they are
rejected for the first argument that makes the list irregular, or because there is nothing to do; as
a failure this asks for the exit code 2. -/
theorem parseArguments_grammar (args : List String) :
    (∀ options, parseArguments args = .ok options ↔
      Regular args ∧ HasTask args ∧ options = requested args) ∧
    (∀ options args', args.Perm args' →
      (parseArguments args' = .ok options ↔ parseArguments args = .ok options)) ∧
    (∀ options, ∀ flag ∈ flags, flag ∈ args →
      (parseArguments (flag :: args) = .ok options ↔ parseArguments args = .ok options)) ∧
    (∀ rejection, parseArguments args = .error rejection ↔
      (∃ before arg after, args = before ++ arg :: after ∧ Regular before ∧
        ¬ Regular (before ++ [arg]) ∧ rejection = refusal before arg) ∨
      (Regular args ∧ ¬ HasTask args ∧ rejection = .missingProgram)) ∧
    ∀ rejection : Rejection, rejection.toFailure =
      { kind := .usage (.ofNat 2), message := rejection.message } := by
  have hrearranged : ∀ options args', Rearranged args args' →
      (parseArguments args' = .ok options ↔ parseArguments args = .ok options) :=
    fun options args' h => ⟨h.symm.parse_eq_ok, h.parse_eq_ok⟩
  refine ⟨fun options => parseArguments_eq_ok_iff, fun options args' hperm => ?_,
    fun options flag hflag hmem => ?_, fun rejection => parseArguments_eq_error_iff,
    fun rejection => rfl⟩
  · exact hrearranged options args' (rearranged_of_perm hperm)
  · exact hrearranged options _ (rearranged_cons_flag hflag hmem)

/-- The name before the flag or behind it, the flag once or twice. -/
theorem parseArguments_grammar_reordered :
    let args := ["hello", "--verbose"]
    args.Perm ["--verbose", "hello"] ∧
      parseArguments ["--verbose", "hello"] = .ok (requested args) ∧
      parseArguments ["--verbose", "hello", "--verbose"] = .ok (requested args) := by
  intro args
  obtain ⟨hok, hperm, hflag, -⟩ := parseArguments_grammar args
  have hparse : parseArguments args = .ok (requested args) := rfl
  have hswap : args.Perm ["--verbose", "hello"] := .swap _ _ _
  exact ⟨hswap, (hperm _ _ hswap).2 hparse, (hflag _ "--verbose" (by decide) (by decide)).2 hparse⟩

/-- Asking for help excuses nothing but a missing program. -/
example : parseArguments ["-h", "hello", "nope", "--fast"] = .error (.unexpectedArgument "nope") :=
  rfl

end Teletype.Command
