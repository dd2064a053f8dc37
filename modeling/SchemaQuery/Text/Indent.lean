import SchemaQuery.Text.Lines

/-!
# Indentation

One level of indentation is two spaces. A text of several lines is put into another one by indenting
all of its lines but the first; an empty line stays empty.
-/

set_option autoImplicit false

namespace SchemaQuery.Text

def indent : String := "  "

def indentation (depth : Nat) : String := String.ofList (List.replicate (2 * depth) ' ')

def nestedLine (depth : Nat) (line : List Char) : List Char :=
  '\n' :: (if line = [] then [] else (indentation depth).toList ++ line)

def nest (depth : Nat) (s : String) : String :=
  match lines s.toList with
  | [] => ""
  | first :: rest => String.ofList (first ++ rest.flatMap (nestedLine depth))

end SchemaQuery.Text
