/-!
# Why a compilation fails

A failure is a cause under a chain of contexts. The structural causes carry the ids they are about;
each has one wording. A document whose text cannot be decoded has no wording of its own.
-/
namespace DeployPlan

inductive CompileError where
  | nodeNotFound (id : String) (referencedBy : Option String)
  | cyclicHost (chain : List String)
  | unknownGroupMember (group id : String)
  | missingBehaviorType (group policy : String)
  | artifactNotFound (node reference detail : String)
  | invalidRelationship (node relationship reason : String)
  | cyclicTypeHierarchy (chain : List String)
  | invalidTopology (reason : String)
deriving DecidableEq, Repr

def CompileError.message : CompileError → String
  | .nodeNotFound id none => s!"node not found: {id}"
  | .nodeNotFound id (some referrer) => s!"node not found: {id} (referenced by {referrer})"
  | .cyclicHost chain => "cyclic host relationship: " ++ " -> ".intercalate chain
  | .unknownGroupMember group id => s!"group {group} references unknown member {id}"
  | .missingBehaviorType group policy =>
    s!"behavior {policy} in group {group} does not declare a type"
  | .artifactNotFound node reference detail =>
    s!"unable to resolve artifact {reference} for node {node}: {detail}"
  | .invalidRelationship node relationship reason =>
    s!"relationship {relationship} on node {node} is invalid: {reason}"
  | .cyclicTypeHierarchy chain => "cyclic derived_from chain for type " ++ " -> ".intercalate chain
  | .invalidTopology reason => s!"invalid topology: {reason}"

/-- A cause and the contexts it was reported through. -/
inductive Failure where
  /-- A structural cause. -/
  | compile (error : CompileError)
  /-- Any other cause with a wording. -/
  | plain (text : String)
  /-- A text that its format's reader refuses, with the reader's report if it gives one. -/
  | malformed (report : Option String)
  /-- A failure seen from a wider context. -/
  | within (context : String) (cause : Failure)
deriving DecidableEq, Repr

namespace Failure

/-- The structural cause, wherever it stands in the chain. -/
def compileError? : Failure → Option CompileError
  | compile error => some error
  | plain _ => none
  | malformed _ => none
  | within _ cause => cause.compileError?

/-- The contexts and the cause, the widest context first. Reports of readers are left out. -/
def chain : Failure → List String
  | compile error => [error.message]
  | plain text => [text]
  | malformed _ => []
  | within context cause => context :: cause.chain

def report? : Failure → Option String
  | malformed report => report
  | within _ cause => cause.report?
  | _ => none

def text (f : Failure) : String := ": ".intercalate f.chain

/-- The chain in one line with the report at its end. -/
def fullText (f : Failure) : String := ": ".intercalate (f.chain ++ f.report?.toList)

end Failure

def inContext {α : Type} (context : String) : Except Failure α → Except Failure α
  | .ok a => .ok a
  | .error f => .error (.within context f)

end DeployPlan
