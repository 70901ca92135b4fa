import DeferredImports.Syntax.Node

/-! Equality of syntax: trivia and source text do not count. -/

namespace DeferredImports.Node

mutual

/-- The same tree, whatever stands around and behind it in the text. -/
def beq : Node → Node → Bool
  | identifier t, identifier t' => t == t'
  | stringLiteral t q, stringLiteral t' q' => t == t' && q == q'
  | propertyAccess e n, propertyAccess e' n' => beq e e' && n == n'
  | elementAccess e a, elementAccess e' a' => beq e e' && beq a a'
  | callExpression e as, callExpression e' as' => beq e e' && beqItems as as'
  | importCall a, importCall a' => beq a a'
  | parameter n, parameter n' => n == n'
  | arrowFunction ps b, arrowFunction ps' b' => beqItems ps ps' && beqOption b b'
  | functionExpression n ps, functionExpression n' ps' => n == n' && beqItems ps ps'
  | parenthesized e, parenthesized e' => beq e e'
  | propertyAssignment n i, propertyAssignment n' i' => n == n' && beq i i'
  | objectLiteral ps, objectLiteral ps' => beqItems ps ps'
  | otherExpression k t, otherExpression k' t' => k == k' && t == t'
  | importSpecifier n p o, importSpecifier n' p' o' => beq n n' && beqOption p p' && o == o'
  | namedImports es, namedImports es' => beqItems es es'
  | namespaceImport n, namespaceImport n' => beq n n'
  | importDeclaration s d b o _ _, importDeclaration s' d' b' o' _ _ =>
    beq s s' && beqOption d d' && beqOption b b' && o == o'
  | variableDeclaration n i, variableDeclaration n' i' => n == n' && beqOption i i'
  | variableStatement ds k _, variableStatement ds' k' _ => beqList ds ds' && k == k'
  | rawStatement t k _, rawStatement t' k' _ => t == t' && k == k'
  | expressionWithTypeArguments e as, expressionWithTypeArguments e' as' => beq e e' && as == as'
  | heritageClause t ts, heritageClause t' ts' => t == t' && beqItems ts ts'
  | classDeclaration n hs, classDeclaration n' hs' => n == n' && beqItems hs hs'
  | functionDeclaration n ps, functionDeclaration n' ps' => n == n' && beqItems ps ps'
  | exportAssignment e, exportAssignment e' => beq e e'
  | otherDeclaration k n, otherDeclaration k' n' => k == k' && n == n'
  | sourceModule f ss _, sourceModule f' ss' _ => f == f' && beqItems ss ss'
  | typeSymbol n p, typeSymbol n' p' => n == n' && beqOption p p'
  | callSignature c r, callSignature c' r' => c == c' && beqOption r r'
  | typeHandle t cs, typeHandle t' cs' => t == t' && beqItems cs cs'
  | _, _ => false

def beqList : List Node → List Node → Bool
  | [], [] => true
  | a :: as, b :: bs => beq a b && beqList as bs
  | _, _ => false

def beqOption : Option Node → Option Node → Bool
  | none, none => true
  | some a, some b => beq a b
  | _, _ => false

def beqItems : Option (List Node) → Option (List Node) → Bool
  | none, none => true
  | some as, some bs => beqList as bs
  | _, _ => false

end

instance : BEq Node := ⟨beq⟩

end DeferredImports.Node
