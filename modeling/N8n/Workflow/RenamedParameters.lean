import Mathlib.Data.List.Infix
import N8n.NodeParameters.NodeProperties

/-! Renaming a node in the parameters of the nodes (`packages/workflow/src/workflow.ts`, and
`packages/workflow/src/node-reference-parser-utils.ts` for the references in a text), and what
it does to parameters without such references.
-/

namespace N8n.NodeParameters

/-- A pattern at the start of a text: what replaces the match, and the text behind it. -/
abbrev Match := List Char → Option (List Char × List Char)

/-- `replace` with a global pattern that no empty text matches. A turn takes at least one
character.
-/
def replaceAll (pattern : Match) : (turns : Nat) → List Char → List Char
  | 0, text => text
  | _ + 1, [] => []
  | turns + 1, first :: rest =>
      match pattern (first :: rest) with
      | some (replaced, behind) => replaced ++ replaceAll pattern turns behind
      | none => first :: replaceAll pattern turns rest

def strip (front text : List Char) : Option (List Char) :=
  if front.isPrefixOf text then some (text.drop front.length) else none

/-- `['"]` -/
def isQuote (char : Char) : Bool := char.toNat = 0x22 || char.toNat = 0x27

/-- `(opening['"])previousName(['"]closing)`, where the closing is one of some characters. -/
def quotedReference (opening : String) (closings previousName newName : List Char) : Match :=
  fun text =>
    match strip opening.toList text with
    | some (first :: named) =>
        match strip previousName named with
        | some (last :: closing :: behind) =>
            if isQuote first && isQuote last && closings.contains closing then
              some (opening.toList ++ [first] ++ newName ++ [last, closing], behind)
            else none
        | _ => none
    | _ => none

/-- `(\$node\.)previousName(\.?)` -/
def dottedReference (previousName newName : List Char) : Match := fun text => do
  let named ← strip "$node.".toList text
  let behind ← strip previousName named
  match behind with
  | '.' :: behind => some ("$node.".toList ++ newName ++ ['.'], behind)
  | _ => some ("$node.".toList ++ newName, behind)

/-- What `.` does not match. -/
def isLineTerminator (char : Char) : Bool := [0xA, 0xD, 0x2028, 0x2029].contains char.toNat

/-- `.newName( |\.)`, replaced by the name in brackets. -/
def dottedName (newName : List Char) : Match := fun text =>
  match text with
  | first :: named =>
      if isLineTerminator first then none
      else
        match strip newName named with
        | some (last :: behind) =>
            if last = ' ' || last = '.' then
              some ("[\"".toList ++ newName ++ "\"]".toList ++ [last], behind)
            else none
        | _ => none
  | [] => none

def hasDotNotationBannedChar (nodeName : List Char) : Bool :=
  nodeName.head?.any Char.isDigit
  || nodeName.any ("\\ \x60!@#$%^&*()_+-=[]\x7b\x7d;':\"|,.<>?~".toList.contains ·)

/-- An entry of `ACCESS_PATTERNS`. The patterns take the names as they are: the source
escapes what is special in a pattern or in a replacement.
-/
structure AccessPattern where
  checkPattern : String
  replacePattern : (previousName newName : List Char) → Match
  customCallback : (expression newName : List Char) → List Char := fun expression _ => expression

def accessPatterns : List AccessPattern :=
  [
    { checkPattern := "$(", replacePattern := quotedReference "$(" [')'] },
    { checkPattern := "$node[", replacePattern := quotedReference "$node[" [']'] },
    {
      checkPattern := "$node."
      replacePattern := dottedReference
      customCallback := fun expression newName =>
        if hasDotNotationBannedChar newName then
          replaceAll (dottedName newName) expression.length expression
        else expression
    },
    { checkPattern := "$items(", replacePattern := quotedReference "$items(" [',', ')'] }
  ]

def applyAccessPatterns (expression previousName newName : String) : String :=
  if ¬ previousName.toList <:+: expression.toList then expression
  else
    String.ofList (accessPatterns.foldl
      (fun expression pattern =>
        if pattern.checkPattern.toList <:+: expression then
          pattern.customCallback
            (replaceAll (pattern.replacePattern previousName.toList newName.toList)
              expression.length expression)
            newName.toList
        else expression)
      expression.toList)

example : applyAccessPatterns "$node.Old.data + $('Old')" "Old" "New name"
    = "$node[\"New name\"].data + $('New name')" := by
  decide +kernel

mutual

def renameNodeInParameterValue (currentName newName : String)
    : Value → (hasRenamableContent : Bool) → Value
  | .string text, hasRenamableContent =>
      if (Value.string text).isExpression || hasRenamableContent then
        .string (applyAccessPatterns text currentName newName)
      else .string text
  | .boolean b, _ => .boolean b
  | .number q, _ => .number q
  | .array items, _ => .array (renameItems currentName newName items)
  -- `typeof null` is `'object'`, and `Object.keys(parameterValue || {})` has no keys.
  | .null, _ => .object []
  | .object entries, hasRenamableContent =>
      .object (renameEntries currentName newName entries hasRenamableContent)

def renameItems (currentName newName : String) : List Value → List Value
  | [] => []
  | item :: rest =>
      renameNodeInParameterValue currentName newName item false
        :: renameItems currentName newName rest

/-- The assignments to `returnData`. The one to `__proto__` gives it another prototype, and
no property.
-/
def renameEntries (currentName newName : String)
    : INodeParameters → (hasRenamableContent : Bool) → INodeParameters
  | [], _ => []
  | (parameterName, value) :: rest, hasRenamableContent =>
      let others := renameEntries currentName newName rest hasRenamableContent
      if parameterName = "__proto__" then others
      else
        (parameterName,
            renameNodeInParameterValue currentName newName value hasRenamableContent)
          :: others

end

namespace Value

mutual

/-- The texts of a value, those of its items and properties among them. -/
def texts : Value → List String
  | .string text => [text]
  | .array items => textsOfItems items
  | .object entries => textsOfEntries entries
  | .null | .boolean _ | .number _ => []

def textsOfItems : List Value → List String
  | [] => []
  | item :: rest => item.texts ++ textsOfItems rest

def textsOfEntries : INodeParameters → List String
  | [] => []
  | (_, value) :: rest => value.texts ++ textsOfEntries rest

end

mutual

/-- The value has a `null` in it, or an object with an own property `__proto__`. -/
def hasNullOrProto : Value → Bool
  | .null => true
  | .boolean _ | .number _ | .string _ => false
  | .array items => haveNullOrProto items
  | .object entries => entriesHaveNullOrProto entries

def haveNullOrProto : List Value → Bool
  | [] => false
  | item :: rest => item.hasNullOrProto || haveNullOrProto rest

def entriesHaveNullOrProto : INodeParameters → Bool
  | [] => false
  | (parameterName, value) :: rest =>
      parameterName == "__proto__" || value.hasNullOrProto || entriesHaveNullOrProto rest

end

end Value

/-- The node's name stands in none of the texts. -/
def Unrelated (currentName : String) (texts : List String) : Prop :=
  ∀ text ∈ texts, ¬ currentName.toList <:+: text.toList

instance {currentName : String} {texts : List String} : Decidable (Unrelated currentName texts) :=
  inferInstanceAs (Decidable (∀ text ∈ texts, ¬ currentName.toList <:+: text.toList))

/-- The value stays as it is, with and without `hasRenamableContent`. -/
def LeavesAlone (currentName newName : String) (value : Value) : Prop :=
  ∀ hasRenamableContent,
    renameNodeInParameterValue currentName newName value hasRenamableContent = value

instance {currentName newName : String} {value : Value}
    : Decidable (LeavesAlone currentName newName value) :=
  inferInstanceAs (Decidable (∀ _, _))

variable {currentName newName : String}

theorem unrelated_append {front back : List String}
    : Unrelated currentName (front ++ back)
      ↔ Unrelated currentName front ∧ Unrelated currentName back := by
  simp only [Unrelated, List.mem_append, or_imp, forall_and]

theorem applyAccessPatterns_of_unrelated {expression : String}
    (unrelated : ¬ currentName.toList <:+: expression.toList)
    : applyAccessPatterns expression currentName newName = expression :=
  if_pos unrelated

theorem length_renameEntries_le (currentName newName : String) (entries : INodeParameters)
    (hasRenamableContent : Bool)
    : (renameEntries currentName newName entries hasRenamableContent).length
      ≤ entries.length := by
  induction entries with
  | nil => exact Nat.le_refl 0
  | cons entry rest ih =>
      unfold renameEntries
      dsimp only
      split
      · exact Nat.le_succ_of_le ih
      · exact Nat.succ_le_succ ih

/-- Without the key `__proto__`, the first entry and the rest are each as they were. -/
theorem renameEntries_cons_eq_iff {parameterName : String} {value : Value}
    {rest : INodeParameters} {hasRenamableContent : Bool}
    : renameEntries currentName newName ((parameterName, value) :: rest) hasRenamableContent
        = (parameterName, value) :: rest
      ↔ parameterName ≠ "__proto__"
        ∧ renameNodeInParameterValue currentName newName value hasRenamableContent = value
        ∧ renameEntries currentName newName rest hasRenamableContent = rest := by
  rw [renameEntries]
  split
  · next proto =>
      refine iff_of_false (fun same => ?_) (fun kept => kept.1 proto)
      have longer := congrArg List.length same
      have shorter := length_renameEntries_le currentName newName rest hasRenamableContent
      rw [List.length_cons] at longer
      omega
  · next other => simp [other]

mutual

theorem renameNodeInParameterValue_eq_iff (value : Value)
    (unrelated : Unrelated currentName value.texts) (hasRenamableContent : Bool)
    : renameNodeInParameterValue currentName newName value hasRenamableContent = value
      ↔ value.hasNullOrProto = false := by
  cases value with
  | string text =>
      have kept : applyAccessPatterns text currentName newName = text :=
        applyAccessPatterns_of_unrelated (unrelated text (List.mem_singleton_self text))
      simp [renameNodeInParameterValue, Value.hasNullOrProto, kept]
  | array items =>
      simpa [renameNodeInParameterValue, Value.hasNullOrProto]
        using renameItems_eq_iff items unrelated
  | object entries =>
      simpa [renameNodeInParameterValue, Value.hasNullOrProto]
        using renameEntries_eq_iff entries unrelated hasRenamableContent
  | _ => simp [renameNodeInParameterValue, Value.hasNullOrProto]

theorem renameItems_eq_iff (items : List Value)
    (unrelated : Unrelated currentName (Value.textsOfItems items))
    : renameItems currentName newName items = items
      ↔ Value.haveNullOrProto items = false := by
  match items with
  | [] => simp [renameItems, Value.haveNullOrProto]
  | item :: rest =>
      obtain ⟨ofItem, ofRest⟩ := unrelated_append.mp unrelated
      rw [renameItems, List.cons.injEq, renameNodeInParameterValue_eq_iff item ofItem false,
        renameItems_eq_iff rest ofRest, Value.haveNullOrProto, Bool.or_eq_false_iff]

theorem renameEntries_eq_iff (entries : INodeParameters)
    (unrelated : Unrelated currentName (Value.textsOfEntries entries))
    (hasRenamableContent : Bool)
    : renameEntries currentName newName entries hasRenamableContent = entries
      ↔ Value.entriesHaveNullOrProto entries = false := by
  match entries with
  | [] => simp [renameEntries, Value.entriesHaveNullOrProto]
  | (parameterName, value) :: rest =>
      obtain ⟨ofValue, ofRest⟩ := unrelated_append.mp unrelated
      rw [renameEntries_cons_eq_iff,
        renameNodeInParameterValue_eq_iff value ofValue hasRenamableContent,
        renameEntries_eq_iff rest ofRest hasRenamableContent, Value.entriesHaveNullOrProto]
      simp [and_assoc]

end

theorem leavesAlone_iff (currentName newName : String) {value : Value}
    (unrelated : Unrelated currentName value.texts)
    : LeavesAlone currentName newName value ↔ value.hasNullOrProto = false := by
  constructor
  · intro alone
    exact (renameNodeInParameterValue_eq_iff value unrelated false).mp (alone false)
  · intro kept hasRenamableContent
    exact (renameNodeInParameterValue_eq_iff value unrelated hasRenamableContent).mpr kept

theorem leavesAlone_iff_nested
    : LeavesAlone "Old" "New"
        (.object [("limit", .number 5), ("rules", .array [.object [("text", .string "=Other")]])])
      ↔ Value.hasNullOrProto
          (.object [("limit", .number 5),
            ("rules", .array [.object [("text", .string "=Other")]])]) = false :=
  leavesAlone_iff "Old" "New" (by decide)

theorem not_leavesAlone_null
    : Unrelated "Old" (Value.texts (.object [("limit", .null)]))
      ∧ ¬ LeavesAlone "Old" "New" (.object [("limit", .null)]) := by
  decide

end N8n.NodeParameters
