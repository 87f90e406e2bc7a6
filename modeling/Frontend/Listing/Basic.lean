/-!
# Tree listings

How a tree is written out for a reader: every node under its name, with its parts
between brackets behind it.

* **Listing**: what is to be written, as texts, labelled parts and bracketed groups.
* **`inline`**: all in one line.
* **`block`**: every part of a group in a line of its own, four columns further in
  than the group, with a comma behind it.  A group without parts stays in its line.
-/

namespace Frontend

/-- The brackets around the parts of a group. -/
inductive Brackets where
  /-- Around the labelled parts of a node. -/
  | curly
  /-- Around the parts of a node that have no labels. -/
  | round
  /-- Around the parts of a list. -/
  | square
deriving DecidableEq

namespace Brackets

def opening : Brackets → String
  | curly => "\x7b"
  | round => "("
  | square => "["

def closing : Brackets → String
  | curly => "\x7d"
  | round => ")"
  | square => "]"

/-- What stands between a bracket and a part in the same line. -/
def padding : Brackets → String
  | curly => " "
  | round => ""
  | square => ""

/-- What stands between a name and the bracket behind it. -/
def gap : Brackets → String
  | curly => " "
  | round => ""
  | square => ""

end Brackets

/-- A tree to be written out. -/
inductive Listing where
  | text (content : String)
  | labelled (label : String) (part : Listing)
  | group (name : String) (brackets : Brackets) (parts : List Listing)
deriving Inhabited

namespace Listing

/-- A node with labelled parts. -/
def node (name : String) (parts : List (String × Listing)) : Listing :=
  group name .curly (parts.map fun part => labelled part.1 part.2)

/-- A node with parts that have no labels. -/
def tuple (name : String) (parts : List Listing) : Listing := group name .round parts

def list (parts : List Listing) : Listing := group "" .square parts

def nat (n : Nat) : Listing := text (toString n)

def bool (b : Bool) : Listing := text (if b then "true" else "false")

/-! ## In one line

A listing is written behind a text that is already there, so that no part of it is
copied more than once. -/

mutual

/-- The text `before` with a listing behind it in the same line. -/
def inlineOnto (before : String) : Listing → String
  | text content => before ++ content
  | labelled label part => part.inlineOnto (before ++ label ++ ": ")
  | group name brackets parts =>
    let inside := if parts.isEmpty then "" else brackets.padding
    inlineAllOnto (before ++ name ++ brackets.gap ++ brackets.opening ++ inside) parts ++
      inside ++ brackets.closing

def inlineAllOnto (before : String) : List Listing → String
  | [] => before
  | [part] => part.inlineOnto before
  | part :: parts => inlineAllOnto (part.inlineOnto before ++ ", ") parts

end

def inline (listing : Listing) : String := listing.inlineOnto ""

/-! ## In many lines -/

/-- The blanks in front of a line at the given depth. -/
def indentation (depth : Nat) : String := String.ofList (List.replicate (4 * depth) ' ')

mutual

/-- The text `before` with a listing behind it, of which the first line continues the text and the
others stand at `depth` or further in. -/
def blockOnto (before : String) (depth : Nat) : Listing → String
  | text content => before ++ content
  | labelled label part => part.blockOnto (before ++ label ++ ": ") depth
  | group name brackets parts =>
    let opened := before ++ name ++ brackets.gap ++ brackets.opening
    if parts.isEmpty then opened ++ brackets.closing
    else
      blockAllOnto (opened ++ "\n") (depth + 1) parts ++ indentation depth ++ brackets.closing

/-- The text `before` with the parts of a group behind it, in lines of their own at `depth`. -/
def blockAllOnto (before : String) (depth : Nat) : List Listing → String
  | [] => before
  | part :: parts =>
    blockAllOnto (part.blockOnto (before ++ indentation depth) depth ++ ",\n") depth parts

end

def block (listing : Listing) : String := listing.blockOnto "" 0

def render (listing : Listing) (inLines : Bool) : String :=
  if inLines then listing.block else listing.inline

end Listing

end Frontend
