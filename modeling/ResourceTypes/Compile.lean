import ResourceTypes.Schema.Binding
import ResourceTypes.Schema.Grammar
import ResourceTypes.Schema.Meaning
import ResourceTypes.Schema.Reading

/-!
Compiling a schema: read it, check its grammar, bind its references, describe
its type. The first of these that finds fault decides the error, which holds
all that it found.
-/

namespace ResourceTypes

inductive CompileError where
  | malformed (offence : Located Malformation)
  | ungrammatical (violations : List (Located Violation))
  | unbound (faults : List (Located BindingFault))
  | defective (defect : Located Defect)

namespace CompileError

/-- The failures that an error consists of; never empty for an error that arises. -/
def toReport : CompileError → Report
  | .malformed offence => [offence.failure]
  | .ungrammatical violations => violations.map Located.failure
  | .unbound faults => faults.map Located.failure
  | .defective defect => [defect.failure]

/-- The report on the schema; a defect is not the fault of the schema. -/
def report? : CompileError → Option Report
  | .defective _ => none
  | error => some error.toReport

def message : CompileError → String
  | .malformed offence => "Malformed input: " ++ offence.failure.text
  | .defective defect =>
    "Internal error at " ++ defect.path.display ++ ": " ++ defect.cause.message
  | error => "Schema rejected with " ++ toString error.toReport.length ++ " failure(s)"

end CompileError

/-- The bound tree of a schema that keeps to the language. -/
def check (table : TypeTable) (maxDepth : Nat) (document : Option String) (schema : Json) :
    Except CompileError SchemaNode := do
  let root ← (Schema.read maxDepth schema).mapError .malformed
  match Grammar.violations root with
  | [] =>
    match Binding.bind ⟨table, document⟩ root with
    | (root, []) => .ok root
    | (_, faults) => .error (.unbound faults)
  | violations => .error (.ungrammatical violations)

/-- The type that a schema describes, with references to the types of a table. -/
def compile (table : TypeTable) (maxDepth : Nat) (document : Option String) (schema : Json) :
    Except CompileError TypeDescriptor := do
  let root ← check table maxDepth document schema
  (Meaning.descriptor root).mapError .defective

/-- The failures of a schema; there are none if it is accepted. -/
def validate (table : TypeTable) (maxDepth : Nat) (document : Option String) (schema : Json) :
    Report :=
  match check table maxDepth document schema with
  | .ok _ => []
  | .error error => error.toReport

end ResourceTypes
