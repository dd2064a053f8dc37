import SchemaQuery.Schema.Basic

/-!
# Code for whole models

The set-up of a client, an interface of the selected fields of a model, and a module with one
function for each of the usual operations on it.
-/

set_option autoImplicit false

namespace SchemaQuery.Code

def clientSetup (client : String) : String :=
  "import \x7b PrismaClient \x7d from '@prisma/client';\n\nconst " ++ client
    ++ " = new PrismaClient();"

def member (f : Field) : String :=
  "  " ++ f.name ++ (if !f.isRequired || f.defaultText.isSome then "?" else "") ++ ": "
    ++ f.typeName ++ (if f.isList then "[]" else "") ++ ";"

def typeDefinition (m : Model) (selected : List String) : String :=
  "interface " ++ m.name ++ "Data \x7b\n"
    ++ String.intercalate "\n" ((m.fields.filter (selected.contains ·.name)).map member) ++ "\n\x7d"

def function (header : String) (call : List String) : List String :=
  ["export async function " ++ header ++ " \x7b"] ++ call ++ ["\x7d", ""]

def crudLines (m : Model) (client : String) : List String :=
  let call := "  return await " ++ client ++ "." ++ m.accessor
  [clientSetup client, ""]
    ++ function ("create" ++ m.name ++ "(data: any)") [call ++ ".create(\x7b data \x7d);"]
    ++ function ("get" ++ m.name ++ "s()") [call ++ ".findMany();"]
    ++ function ("update" ++ m.name ++ "(id: number, data: any)")
      [call ++ ".update(\x7b", "    where: \x7b id \x7d,", "    data,", "  \x7d);"]
    ++ function ("delete" ++ m.name ++ "(id: number)")
      [call ++ ".delete(\x7b", "    where: \x7b id \x7d,", "  \x7d);"]

def crudModule (m : Model) (client : String) : String :=
  String.intercalate "\n" (crudLines m client)

def crudFileName (m : Model) : String := m.name ++ "CRUD.ts"

end SchemaQuery.Code
