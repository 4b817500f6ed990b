/-!
# Kinds

Every node of a Lua syntax tree has a kind: the class of a token, or the grammar rule of a
composite node. What a kind can do is fixed by its role, one of five; all the questions asked of
a kind below read that one table.
-/

namespace LuaTree

/-- The kind of a node, tokens first, in the order in which kinds are numbered. -/
inductive Kind where
  | whitespace
  | comment
  /-- Text that is no token of the language. -/
  | unknown
  | lparen
  | rparen
  | lbracket
  | rbracket
  | lbrace
  | rbrace
  | comma
  | semi
  | dot
  | colon
  | assign
  | plus
  | minus
  | times
  | divide
  | modulo
  | power
  | concat
  | equal
  | notEqual
  | less
  | lessEqual
  | greater
  | greaterEqual
  /-- The sign `#`. -/
  | length
  | ellipsis
  | andWord
  | orWord
  | notWord
  | nilWord
  | trueWord
  | falseWord
  | functionWord
  | endWord
  | identifier
  | number
  | string
  | file
  | block
  | argList
  | tableField
  | parenExpr
  | literalExpr
  | nameExpr
  | binaryExpr
  | unaryExpr
  | callExpr
  | indexExpr
  | tableExpr
  | closureExpr
  deriving DecidableEq, Repr

namespace Kind

/-- All kinds in the order of their numbers. -/
def all : List Kind :=
  [whitespace, comment, unknown, lparen, rparen, lbracket, rbracket, lbrace, rbrace, comma, semi,
   dot, colon, assign, plus, minus, times, divide, modulo, power, concat, equal, notEqual, less,
   lessEqual, greater, greaterEqual, length, ellipsis, andWord, orWord, notWord, nilWord, trueWord,
   falseWord, functionWord, endWord, identifier, number, string, file, block, argList, tableField,
   parenExpr, literalExpr, nameExpr, binaryExpr, unaryExpr, callExpr, indexExpr, tableExpr,
   closureExpr]

/-- The number of a kind: its position among all kinds. -/
def index (kind : Kind) : Nat := all.idxOf kind

/-- The kind with a given number. -/
def ofIndex? (n : Nat) : Option Kind := all[n]?

/-- The name of a kind in the grammar. -/
def name : Kind → String
  | .whitespace => "WHITESPACE"
  | .comment => "COMMENT"
  | .unknown => "ERROR"
  | .lparen => "LPAREN"
  | .rparen => "RPAREN"
  | .lbracket => "LBRACK"
  | .rbracket => "RBRACK"
  | .lbrace => "LCURLY"
  | .rbrace => "RCURLY"
  | .comma => "COMMA"
  | .semi => "SEMI"
  | .dot => "DOT"
  | .colon => "COLON"
  | .assign => "ASSIGN"
  | .plus => "PLUS"
  | .minus => "MINUS"
  | .times => "MULT"
  | .divide => "DIV"
  | .modulo => "MOD"
  | .power => "EXP"
  | .concat => "CONCAT"
  | .equal => "EQ"
  | .notEqual => "NE"
  | .less => "LT"
  | .lessEqual => "LE"
  | .greater => "GT"
  | .greaterEqual => "GE"
  | .length => "GETN"
  | .ellipsis => "ELLIPSIS"
  | .andWord => "AND"
  | .orWord => "OR"
  | .notWord => "NOT"
  | .nilWord => "NIL"
  | .trueWord => "TRUE"
  | .falseWord => "FALSE"
  | .functionWord => "FUNCTION"
  | .endWord => "END"
  | .identifier => "ID"
  | .number => "NUMBER"
  | .string => "STRING"
  | .file => "FILE"
  | .block => "BLOCK"
  | .argList => "ARGS"
  | .tableField => "TABLE_FIELD"
  | .parenExpr => "PAREN_EXPR"
  | .literalExpr => "LITERAL_EXPR"
  | .nameExpr => "NAME_EXPR"
  | .binaryExpr => "BINARY_EXPR"
  | .unaryExpr => "UNARY_EXPR"
  | .callExpr => "CALL_EXPR"
  | .indexExpr => "INDEX_EXPR"
  | .tableExpr => "TABLE_EXPR"
  | .closureExpr => "CLOSURE_EXPR"

/-- The kind with a given name. -/
def ofName? (name : String) : Option Kind := all.find? (·.name == name)

/-- What nodes of a kind are for. -/
inductive Role where
  /-- A token without meaning for the grammar. -/
  | trivia
  /-- Any other token. -/
  | token
  /-- A composite node that has no stub. -/
  | inner
  /-- A composite node with a stub that is no expression. -/
  | stubbed
  /-- An expression; expressions have stubs. -/
  | expr
  deriving DecidableEq, Repr

/-- The role of a kind. -/
def role : Kind → Role
  | whitespace | comment => .trivia
  | file => .stubbed
  | block | argList | tableField => .inner
  | parenExpr | literalExpr | nameExpr | binaryExpr | unaryExpr | callExpr | indexExpr | tableExpr
  | closureExpr => .expr
  | _ => .token

/-- Nodes of the kind are leaves that hold source text. -/
def isToken (kind : Kind) : Bool := kind.role = .trivia || kind.role = .token

/-- Nodes of the kind are tokens without meaning for the grammar. -/
def isTrivia (kind : Kind) : Bool := kind.role = .trivia

/-- Nodes of the kind are expressions. -/
def isExpr (kind : Kind) : Bool := kind.role = .expr

/-- Nodes of the kind have a stub. -/
def hasStub (kind : Kind) : Bool := kind.role = .stubbed || kind.role = .expr

/-- The capabilities of a kind as one number: bit 0 for tokens, bit 1 for trivia, bit 2 for
expressions, bit 3 for kinds with a stub. -/
def capabilityBits (kind : Kind) : Nat :=
  kind.isToken.toNat + 2 * kind.isTrivia.toNat + 4 * kind.isExpr.toNat + 8 * kind.hasStub.toNat

/-- Tokens that stand for an operator. -/
def isOperator : Kind → Bool
  | plus | minus | times | divide | modulo | power | concat | equal | notEqual | less | lessEqual
  | greater | greaterEqual | length | andWord | orWord | notWord => true
  | _ => false

end Kind

/-- The classes of literals. -/
inductive LiteralKind where
  | nil
  | bool
  | number
  | string
  | vararg
  deriving DecidableEq, Repr

namespace LiteralKind

/-- All classes of literals in the order of their numbers. -/
def all : List LiteralKind := [nil, bool, number, string, vararg]

/-- The number of a class of literals. -/
def index (literal : LiteralKind) : Nat := all.idxOf literal

/-- The class of literals with a given number. -/
def ofIndex? (n : Nat) : Option LiteralKind := all[n]?

/-- The class of literal that a token of a given kind is, if it is one. -/
def ofToken? : Kind → Option LiteralKind
  | .nilWord => some nil
  | .trueWord | .falseWord => some bool
  | .number => some number
  | .string => some string
  | .ellipsis => some vararg
  | _ => none

end LiteralKind

end LuaTree
