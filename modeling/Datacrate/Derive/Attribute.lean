import Datacrate.Lib.Fallible

namespace Datacrate.Derive

/-- A token of an attribute's arguments. -/
inductive Token where
  | ident (name : String)
  | pathSep
  | comma
  | other (text : String)
  deriving DecidableEq, Repr

inductive Delimiter where
  | parenthesis
  | brace
  | bracket
  deriving DecidableEq, Repr

/-- What follows the path of an attribute: nothing, arguments between
delimiters, or a value. -/
inductive Arguments where
  | path
  | list (delimiter : Delimiter) (tokens : List Token)
  | nameValue
  deriving DecidableEq, Repr

structure Path where
  leadingColon : Bool
  first : String
  rest : List String
  deriving DecidableEq, Repr

def Path.ofIdent (name : String) : Path :=
  ⟨false, name, []⟩

def Path.isIdent (path : Path) (name : String) : Bool :=
  path == .ofIdent name

structure Attribute where
  path : Path
  arguments : Arguments
  deriving DecidableEq, Repr

/-- Why a derive stops: with a message of its own, or with one of the parser
library. -/
inductive DeriveError where
  | message (text : String)
  | syntaxError
  deriving DecidableEq, Repr

/-- What the parser library hands to a closure: the path of an item, and the
tokens behind it. -/
structure ParseNestedMeta where
  path : Path
  input : List Token
  deriving DecidableEq, Repr

def separated (names : List String) : List Token :=
  names.flatMap fun name => [.pathSep, .ident name]

def Path.tokens (path : Path) : List Token :=
  (if path.leadingColon then [.pathSep] else []) ++ .ident path.first :: separated path.rest

/-- Items that are paths alone, with commas between them and perhaps one after
the last. -/
inductive PlainItems : List Token → List ParseNestedMeta → Prop
  | nil : PlainItems [] []
  | last (path : Path) : PlainItems path.tokens [⟨path, []⟩]
  | cons (path : Path) {tokens : List Token} {items : List ParseNestedMeta} : PlainItems tokens items →
      PlainItems (path.tokens ++ .comma :: tokens) (⟨path, .comma :: tokens⟩ :: items)

/-- What the derive takes from the parser library. A closure that consumes no
input gets the items of the arguments in turn, until it fails; then the parse
fails unless the arguments are complete. Arguments in parentheses are complete
where their items are plain, and an attribute without arguments never is. -/
structure MetaParser where
  parseNestedMeta : Arguments → (Bool → ParseNestedMeta → Except DeriveError Bool) → Bool → Except DeriveError Bool
  items : Arguments → List ParseNestedMeta
  complete : Arguments → Bool
  visits : ∀ arguments logic captured, parseNestedMeta arguments logic captured = (do
    let captured ← (items arguments).foldlM logic captured
    if complete arguments then return captured else throw .syntaxError)
  parenthesized : ∀ tokens plain, items (.list .parenthesis tokens) = plain ∧ complete (.list .parenthesis tokens) = true ↔
    PlainItems tokens plain
  unparenthesized : complete .path = false ∧ complete .nameValue = false

/-- The closure over the items of one attribute, from whether `default` was
among those before. -/
def defaultMeta (parsedDefault : Bool) (nested : ParseNestedMeta) : Except DeriveError Bool :=
  if !nested.path.isIdent "default" then throw (.message "expected `default`")
  else if parsedDefault then throw (.message "duplicate `default`")
  else if !nested.input.isEmpty && nested.input.head? != some .comma then
    throw (.message "`default` does not accept a value or arguments")
  else return true

section Scan

variable (syn : MetaParser)

/-- The loop over the attributes of a field, from whether a contract
attribute was among those before. -/
def scanAttributes (found : Bool) : List Attribute → Except DeriveError Bool
  | [] => .ok found
  | attr :: attrs =>
    if !attr.path.isIdent "contract" then scanAttributes found attrs
    else if found then .error (.message "duplicate contract attribute")
    else do
      let parsedDefault ← syn.parseNestedMeta attr.arguments defaultMeta false
      if parsedDefault then scanAttributes true attrs else throw (.message "expected `contract(default)`")

def hasDefaultAttr (attrs : List Attribute) : Except DeriveError Bool :=
  scanAttributes syn false attrs

/-- The library reads the arguments as `default` alone, at the end or before a
comma. -/
def MetaParser.ReadsDefault (arguments : Arguments) : Prop :=
  syn.complete arguments = true ∧ ∃ input, syn.items arguments = [⟨.ofIdent "default", input⟩] ∧
    (input = [] ∨ input.head? = some .comma)

/-- The attributes that the derive reads. -/
def contractAttributes (attrs : List Attribute) : List Attribute :=
  attrs.filter fun attr => attr.path.isIdent "contract"

/-- The attributes of a field mark it as having a default, or not. -/
def Marks (attrs : List Attribute) : Bool → Prop
  | false => contractAttributes attrs = []
  | true => ∃ attr, contractAttributes attrs = [attr] ∧ syn.ReadsDefault attr.arguments

end Scan

section Grammar

variable {syn : MetaParser} {attrs : List Attribute} {marked parsedDefault : Bool}

theorem defaultMeta_ok_iff {nested : ParseNestedMeta} : defaultMeta parsedDefault nested = .ok marked ↔
    marked = true ∧ parsedDefault = false ∧ nested.path = .ofIdent "default" ∧
      (nested.input = [] ∨ nested.input.head? = some .comma) := by
  obtain ⟨path, input⟩ := nested
  unfold defaultMeta
  by_cases named : path = .ofIdent "default"
  · cases parsedDefault
    · rcases input with _ | ⟨next, more⟩
      · simp [Path.isIdent, named, pure, Except.pure, eq_comm]
      · by_cases comma : next = .comma
        · simp [Path.isIdent, named, comma, pure, Except.pure, eq_comm]
        · simp [Path.isIdent, named, comma, throw, throwThe, MonadExceptOf.throw]
    · simp [Path.isIdent, named, throw, throwThe, MonadExceptOf.throw]
  · simp [Path.isIdent, named, throw, throwThe, MonadExceptOf.throw]

/-- The closure takes one item, and none after it. -/
theorem foldlM_defaultMeta_true_iff {items : List ParseNestedMeta} :
    items.foldlM defaultMeta true = .ok marked ↔ items = [] ∧ marked = true := by
  cases items with
  | nil => simp [pure, Except.pure, eq_comm]
  | cons nested items => simp [List.foldlM_cons, Fallible.bind_ok_iff, defaultMeta_ok_iff]

theorem foldlM_defaultMeta_ok_iff {items : List ParseNestedMeta} :
    items.foldlM defaultMeta false = .ok true ↔
      ∃ input, items = [⟨.ofIdent "default", input⟩] ∧ (input = [] ∨ input.head? = some .comma) := by
  cases items with
  | nil => simp [pure, Except.pure]
  | cons nested items =>
    obtain ⟨path, input⟩ := nested
    simp only [List.foldlM_cons, Fallible.bind_ok_iff, defaultMeta_ok_iff, List.cons.injEq, ParseNestedMeta.mk.injEq]
    constructor
    · rintro ⟨_, ⟨rfl, _, named, behind⟩, later⟩
      exact ⟨input, ⟨⟨named, rfl⟩, (foldlM_defaultMeta_true_iff.mp later).1⟩, behind⟩
    · rintro ⟨_, ⟨⟨named, rfl⟩, rfl⟩, behind⟩
      exact ⟨true, ⟨rfl, trivial, named, behind⟩, foldlM_defaultMeta_true_iff.mpr ⟨rfl, rfl⟩⟩

theorem parseNestedMeta_true_iff {arguments : Arguments} :
    syn.parseNestedMeta arguments defaultMeta false = .ok true ↔ syn.ReadsDefault arguments := by
  rw [syn.visits, MetaParser.ReadsDefault, ← foldlM_defaultMeta_ok_iff, Fallible.bind_ok_iff]
  cases syn.complete arguments <;> simp [throw, throwThe, MonadExceptOf.throw, pure, Except.pure]

/-- In parentheses the arguments are `default`, perhaps with a comma after it;
and there is no other way without delimiters. -/
theorem readsDefault_iff (syn : MetaParser) :
    (∀ tokens, syn.ReadsDefault (.list .parenthesis tokens) ↔
      tokens = [.ident "default"] ∨ tokens = [.ident "default", .comma]) ∧
    ¬ syn.ReadsDefault .path ∧ ¬ syn.ReadsDefault .nameValue := by
  refine ⟨fun tokens => ?_, fun read => ?_, fun read => ?_⟩
  · constructor
    · rintro ⟨complete, input, items, _⟩
      cases (syn.parenthesized tokens _).mp ⟨items, complete⟩ with
      | last path => exact Or.inl rfl
      | cons path rest =>
        cases rest
        exact Or.inr rfl
    · rintro (rfl | rfl)
      · obtain ⟨items, complete⟩ := (syn.parenthesized _ _).mpr (.last (.ofIdent "default"))
        exact ⟨complete, [], items, Or.inl rfl⟩
      · obtain ⟨items, complete⟩ := (syn.parenthesized _ _).mpr (.cons (.ofIdent "default") .nil)
        exact ⟨complete, _, items, Or.inr rfl⟩
  · exact Bool.false_ne_true (syn.unparenthesized.1.symm.trans read.1)
  · exact Bool.false_ne_true (syn.unparenthesized.2.symm.trans read.1)

theorem contractAttributes_cons_of_ne {attr : Attribute} (other : attr.path.isIdent "contract" = false) :
    contractAttributes (attr :: attrs) = contractAttributes attrs := by
  rw [contractAttributes, List.filter_cons_of_neg (by simpa using other), contractAttributes]

theorem contractAttributes_cons {attr : Attribute} (own : attr.path.isIdent "contract" = true) :
    contractAttributes (attr :: attrs) = attr :: contractAttributes attrs := by
  rw [contractAttributes, List.filter_cons_of_pos (by simpa using own), contractAttributes]

/-- After a contract attribute there is no other. -/
theorem scanAttributes_true_iff :
    scanAttributes syn true attrs = .ok marked ↔ contractAttributes attrs = [] ∧ marked = true := by
  induction attrs with
  | nil => simp [scanAttributes, contractAttributes, eq_comm]
  | cons attr attrs ih =>
    cases own : attr.path.isIdent "contract" with
    | true =>
      rw [contractAttributes_cons own]
      simp [scanAttributes, own]
    | false =>
      rw [contractAttributes_cons_of_ne own, ← ih]
      simp [scanAttributes, own]

/-- The attributes are read where they mark the field, or do not concern the
derive; and only then. -/
theorem hasDefaultAttr_ok_iff : hasDefaultAttr syn attrs = .ok marked ↔ Marks syn attrs marked := by
  unfold hasDefaultAttr
  induction attrs with
  | nil => cases marked <;> simp [scanAttributes, Marks, contractAttributes]
  | cons attr attrs ih =>
    cases own : attr.path.isIdent "contract" with
    | true =>
      have read : scanAttributes syn false (attr :: attrs) = .ok marked ↔
          syn.parseNestedMeta attr.arguments defaultMeta false = .ok true ∧ scanAttributes syn true attrs = .ok marked := by
        simp only [scanAttributes, own, Bool.not_true, Bool.false_eq_true, if_false]
        rcases syn.parseNestedMeta attr.arguments defaultMeta false with failure | _ | _ <;>
          simp [bind, Except.bind, throw, throwThe, MonadExceptOf.throw]
      rw [read, parseNestedMeta_true_iff, scanAttributes_true_iff]
      cases marked with
      | false => simp [Marks, contractAttributes_cons own]
      | true =>
        simp only [Marks, contractAttributes_cons own, List.cons.injEq, and_true]
        constructor
        · rintro ⟨marking, alone⟩
          exact ⟨attr, ⟨rfl, alone⟩, marking⟩
        · rintro ⟨_, ⟨rfl, alone⟩, marking⟩
          exact ⟨marking, alone⟩
    | false =>
      have skipped : Marks syn (attr :: attrs) marked ↔ Marks syn attrs marked := by
        cases marked <;> simp only [Marks, contractAttributes_cons_of_ne own]
      rw [skipped, ← ih]
      simp [scanAttributes, own]

end Grammar

section Descent

variable {tokens rest : List Token} {names : List String} {path : Path}

def pathSegments : List Token → Option (List String × List Token)
  | .pathSep :: .ident name :: rest => (pathSegments rest).map fun path => (name :: path.1, path.2)
  | .pathSep :: _ => none
  | tokens => some ([], tokens)

/-- The path at the front of some tokens, and what follows it. -/
def parseMetaPath : List Token → Option (Path × List Token)
  | .pathSep :: .ident first :: tokens => (pathSegments tokens).map fun path => (⟨true, first, path.1⟩, path.2)
  | .ident first :: tokens => (pathSegments tokens).map fun path => (⟨false, first, path.1⟩, path.2)
  | _ => none

theorem pathSegments_eq_some_iff : pathSegments tokens = some (names, rest) ↔
    tokens = separated names ++ rest ∧ rest.head? ≠ some .pathSep := by
  fun_induction pathSegments tokens generalizing names with
  | case1 name tail ih =>
    rw [Option.map_eq_some_iff]
    constructor
    · rintro ⟨⟨inner, after⟩, found, same⟩
      cases same
      obtain ⟨rfl, behind⟩ := ih.mp found
      exact ⟨rfl, behind⟩
    · rintro ⟨whole, behind⟩
      cases names with
      | nil =>
        subst whole
        simp at behind
      | cons first others =>
        simp only [separated, List.flatMap_cons, List.cons_append, List.nil_append, List.cons.injEq, Token.ident.injEq,
          true_and] at whole
        obtain ⟨rfl, whole⟩ := whole
        exact ⟨(others, rest), ih.mpr ⟨whole, behind⟩, rfl⟩
  | case2 tail other =>
    simp only [reduceCtorEq, false_iff, not_and, not_not]
    intro whole
    cases names with
    | nil =>
      subst whole
      rfl
    | cons first others =>
      simp only [separated, List.flatMap_cons, List.cons_append, List.nil_append, List.cons.injEq, true_and] at whole
      exact absurd whole (other first _)
  | case3 tokens plain last =>
    simp only [Option.some.injEq, Prod.mk.injEq]
    constructor
    · rintro ⟨rfl, rfl⟩
      refine ⟨rfl, fun separator => ?_⟩
      obtain ⟨tail, rfl⟩ := List.head?_eq_some_iff.mp separator
      exact last tail rfl
    · rintro ⟨whole, behind⟩
      cases names with
      | nil => exact ⟨rfl, whole⟩
      | cons first others => exact absurd whole (plain first _)

theorem parseMetaPath_eq_some_iff : parseMetaPath tokens = some (path, rest) ↔
    tokens = path.tokens ++ rest ∧ rest.head? ≠ some .pathSep := by
  obtain ⟨leadingColon, first, names⟩ := path
  unfold parseMetaPath
  split
  · rename_i name tail
    cases leadingColon with
    | true => simp [Path.tokens, pathSegments_eq_some_iff, and_assoc, and_comm, and_left_comm]
    | false => simp [Path.tokens]
  · rename_i name tail
    cases leadingColon with
    | true => simp [Path.tokens]
    | false => simp [Path.tokens, pathSegments_eq_some_iff, and_assoc, and_comm, and_left_comm]
  · rename_i other alone
    simp only [reduceCtorEq, false_iff, not_and]
    intro whole
    cases leadingColon with
    | true => exact absurd whole (other first _)
    | false => exact absurd whole (alone first _)

theorem parseMetaPath_length (parsed : parseMetaPath tokens = some (path, rest)) : rest.length < tokens.length := by
  obtain ⟨rfl, _⟩ := parseMetaPath_eq_some_iff.mp parsed
  rw [List.length_append, Path.tokens, List.length_append, List.length_cons]
  omega

/-- The items of some tokens, and whether they are complete. -/
def metaItems (tokens : List Token) : List ParseNestedMeta × Bool :=
  match _parsed : parseMetaPath tokens with
  | none => ([], tokens.isEmpty)
  | some (path, .comma :: rest) => (⟨path, .comma :: rest⟩ :: (metaItems rest).1, (metaItems rest).2)
  | some (path, rest) => ([⟨path, rest⟩], rest.isEmpty)
termination_by tokens.length
decreasing_by
  have shorter := parseMetaPath_length _parsed
  rw [List.length_cons] at shorter
  omega

theorem metaItems_path (path : Path) : metaItems path.tokens = ([⟨path, []⟩], true) := by
  have parsed : parseMetaPath path.tokens = some (path, []) := parseMetaPath_eq_some_iff.mpr (by simp)
  rw [metaItems]
  split <;> simp_all

theorem metaItems_comma (path : Path) (tokens : List Token) : metaItems (path.tokens ++ .comma :: tokens) =
    (⟨path, .comma :: tokens⟩ :: (metaItems tokens).1, (metaItems tokens).2) := by
  have parsed : parseMetaPath (path.tokens ++ .comma :: tokens) = some (path, .comma :: tokens) :=
    parseMetaPath_eq_some_iff.mpr (by simp)
  rw [metaItems]
  split <;> simp_all

theorem metaItems_eq_iff {items : List ParseNestedMeta} : metaItems tokens = (items, true) ↔ PlainItems tokens items := by
  constructor
  · intro read
    fun_induction metaItems tokens generalizing items with
    | case1 tokens stuck =>
      simp only [Prod.mk.injEq, List.isEmpty_iff] at read
      obtain ⟨rfl, rfl⟩ := read
      exact .nil
    | case2 tokens path rest parsed ih =>
      obtain ⟨rfl, _⟩ := parseMetaPath_eq_some_iff.mp parsed
      simp only [Prod.mk.injEq] at read
      obtain ⟨rfl, complete⟩ := read
      exact .cons path (ih (Prod.ext rfl complete))
    | case3 tokens path rest separate parsed =>
      obtain ⟨rfl, _⟩ := parseMetaPath_eq_some_iff.mp parsed
      simp only [Prod.mk.injEq, List.isEmpty_iff] at read
      obtain ⟨rfl, rfl⟩ := read
      rw [List.append_nil]
      exact .last path
  · intro plain
    induction plain with
    | nil =>
      rw [metaItems]
      rfl
    | last path => exact metaItems_path path
    | cons path _ ih => rw [metaItems_comma, ih]

def Arguments.items : Arguments → List ParseNestedMeta × Bool
  | .list _ tokens => metaItems tokens
  | .path | .nameValue => ([], false)

/-- A parser that goes by the tokens alone, whatever is around them. -/
def descent : MetaParser where
  parseNestedMeta arguments logic captured := do
    let captured ← arguments.items.1.foldlM logic captured
    if arguments.items.2 then return captured else throw .syntaxError
  items arguments := arguments.items.1
  complete arguments := arguments.items.2
  visits _ _ _ := rfl
  parenthesized _ _ := Prod.ext_iff.symm.trans metaItems_eq_iff
  unparenthesized := ⟨rfl, rfl⟩

end Descent

end Datacrate.Derive
