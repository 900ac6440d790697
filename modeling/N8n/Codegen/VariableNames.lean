import Mathlib.Data.Nat.Digits.Defs
import N8n.Library.Dict
import N8n.Library.Text

/-! The variables that generated code declares for nodes
(`packages/@n8n/workflow-sdk/src/codegen/variable-names.ts`).
-/

namespace N8n.Codegen

open N8n.Text

def RESERVED_KEYWORDS : List String :=
  ["break", "case", "catch", "class", "const", "continue", "debugger", "default", "delete", "do",
    "else", "export", "extends", "finally", "for", "function", "if", "import", "in", "instanceof",
    "let", "new", "return", "static", "super", "switch", "this", "throw", "try", "typeof", "var",
    "void", "while", "with", "yield", "null", "true", "false", "undefined", "workflow", "trigger",
    "node", "merge", "ifElse", "switchCase", "splitInBatches", "sticky", "languageModel", "tool",
    "memory", "outputParser", "textSplitter", "embeddings", "vectorStore", "retriever",
    "document", "eval", "Function", "require", "process", "global", "globalThis", "window",
    "setTimeout", "setInterval", "setImmediate", "clearTimeout", "clearInterval",
    "clearImmediate", "module", "exports", "Buffer", "Reflect", "Proxy"]

/-- A node's name as the source language keeps it, in units of 16 bits. -/
abbrev NodeName := List UInt16

structure VarNameContext where
  nodeNameToVarName : Dict NodeName String
  usedVarNames : List String

/-- `.replace(/[^a-zA-Z0-9]/g, '_')`. -/
def replaceOthers (nodeName : NodeName) : List Char :=
  nodeName.map (fun unit =>
    let char := Char.ofNat unit.toNat
    if isAlphanumeric char then char else '_')

/-- `.replace(/_+/g, '_')`. -/
def mergeUnderscores : List Char → List Char
  | [] => []
  | char :: rest =>
      if char = '_' ∧ rest.head? = some '_' then mergeUnderscores rest
      else char :: mergeUnderscores rest

/-- `.replace(/_$/g, '')`. -/
def dropLastUnderscore (text : List Char) : List Char :=
  if text.getLast? = some '_' then text.dropLast else text

/-- `.replace(/^([A-Z])/, (c) => c.toLowerCase())`. -/
def lowerFirst : List Char → List Char
  | [] => []
  | first :: rest => if first.isUpper then first.toLower :: rest else first :: rest

def base36Digit (digit : Nat) : Char :=
  Char.ofNat (if digit < 10 then 48 + digit else 87 + digit)

/-- `n.toString(36)`. -/
def toString36 (n : Nat) : List Char :=
  if n = 0 then ['0'] else ((Nat.digits 36 n).map base36Digit).reverse

/-- The bitwise operators wrap the hash to 32 bits. -/
def hashFallbackName (nodeName : NodeName) : List Char :=
  let hash : BitVec 32 :=
    nodeName.foldl (fun hash unit => (hash <<< 5) - hash + BitVec.ofNat 32 unit.toNat) 0
  "node_".toList ++ toString36 hash.toInt.natAbs

def prefixDigit : List Char → List Char
  | [] => []
  | first :: rest => if first.isDigit then '_' :: first :: rest else first :: rest

def dropUnderscoreBeforeLetter : List Char → List Char
  | '_' :: second :: rest => if second.isAlpha then second :: rest else '_' :: second :: rest
  | text => text

def toVarName (nodeName : NodeName) : String :=
  let varName :=
    lowerFirst (dropLastUnderscore (mergeUnderscores (replaceOthers nodeName)))
  if varName = [] ∨ varName = ['_'] then String.ofList (hashFallbackName nodeName)
  else
    let varName := String.ofList (dropUnderscoreBeforeLetter (prefixDigit varName))
    if varName ∈ RESERVED_KEYWORDS then varName ++ "_node" else varName

theorem exists_unused_counter (baseVarName : String) (used : List String)
    : ∃ counter, baseVarName ++ toString (counter + 1) ∉ used :=
  exists_numbered_not_mem baseVarName 1 used

/-- The base name, or the first free one with a counter. -/
def freeVarName (baseVarName : String) (used : List String) : String :=
  if baseVarName ∈ used then
    baseVarName ++ toString (Nat.find (exists_unused_counter baseVarName used) + 1)
  else baseVarName

def getUniqueVarName (nodeName : NodeName) (ctx : VarNameContext) : String × VarNameContext :=
  match ctx.nodeNameToVarName.get? nodeName with
  | some varName => (varName, ctx)
  | none =>
      let varName := freeVarName (toVarName nodeName) ctx.usedVarNames
      (varName,
        {
          nodeNameToVarName := ctx.nodeNameToVarName.set nodeName varName
          usedVarNames := varName :: ctx.usedVarNames
        })

/-- The loop of `generateCode` over the names of the nodes; each name with what it obtains. -/
def registerVarNames : List NodeName → VarNameContext → List (NodeName × String) × VarNameContext
  | [], ctx => ([], ctx)
  | nodeName :: rest, ctx =>
      let (varName, ctx) := getUniqueVarName nodeName ctx
      let (obtained, ctx) := registerVarNames rest ctx
      ((nodeName, varName) :: obtained, ctx)

def obtainedVarNames (nodeNames : List NodeName) : List (NodeName × String) :=
  (registerVarNames nodeNames ⟨Dict.empty, []⟩).1

end N8n.Codegen
