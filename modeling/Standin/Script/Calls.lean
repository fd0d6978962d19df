import Standin.Script.Tree

namespace Standin.Script

structure CallSite where
  span : Span
  callee : Expr
  arguments : List Element

mutual

def TypeTree.calls : TypeTree → List CallSite
  | .mk _ computed => callsIn computed

def Expr.calls : Expr → List CallSite
  | .call span callee types arguments =>
    ⟨span, callee, arguments⟩ ::
      (callee.calls ++ callsInTypes types ++ callsInElements arguments)
  | .newExpr _ callee types arguments =>
    callee.calls ++ callsInTypes types ++ callsInElements arguments
  | .template _ _ es | .sequence _ es | .yieldExpr _ es | .markup _ es => callsIn es
  | .tagged _ tag types es => tag.calls ++ callsInTypes types ++ callsIn es
  | .array _ elements => callsInElements elements
  | .object _ properties => callsInProperties properties
  | .functionExpr f => f.calls
  | .arrow _ _ typeParams params result body =>
    callsInTypes typeParams ++ callsInParams params ++ callsInTypes result ++ callsInStmts body
  | .classExpr c => c.calls
  | .unary _ _ e | .update _ _ e | .privateIn _ _ e | .member _ e _ | .privateMember _ e _
  | .chain _ e | .paren _ e | .awaitExpr _ e | .nonNull _ e => e.calls
  | .binary _ _ a b | .assign _ _ a b | .index _ a b => a.calls ++ b.calls
  | .conditional _ a b c => a.calls ++ b.calls ++ c.calls
  | .importCall _ e es => e.calls ++ callsIn es
  | .typed _ e t => e.calls ++ t.calls
  | .asserted _ t e => t.calls ++ e.calls
  | .instantiated _ e types => e.calls ++ callsInTypes types
  | .ident _ | .literal _ | .boolean .. | .string _ | .thisExpr _ | .superExpr _
  | .metaProperty _ => []

def Element.calls : Element → List CallSite
  | .hole => []
  | .one e | .spread _ e => e.calls

def Key.calls : Key → List CallSite
  | .computed e => e.calls
  | _ => []

def Property.calls : Property → List CallSite
  | .pair key e => key.calls ++ e.calls
  | .shorthand _ es => callsIn es
  | .method key _ f => key.calls ++ f.calls
  | .spread _ e => e.calls

def Pattern.calls : Pattern → List CallSite
  | .name _ types => callsInTypes types
  | .object _ properties types => callsInPatternProperties properties ++ callsInTypes types
  | .array _ elements types => callsInPatterns elements ++ callsInTypes types
  | .hole => []
  | .rest _ p => p.calls
  | .fallback p e => p.calls ++ e.calls

def PatternProperty.calls : PatternProperty → List CallSite
  | .pair key p => key.calls ++ p.calls
  | .rest p => p.calls

def Param.calls : Param → List CallSite
  | .mk decorators p => callsIn decorators ++ p.calls

def Func.calls : Func → List CallSite
  | .mk _ _ _ _ typeParams params result _ body =>
    callsInTypes typeParams ++ callsInParams params ++ callsInTypes result ++ callsInStmts body

def Class.calls : Class → List CallSite
  | .mk _ _ decorators typeParams superclass types members =>
    callsIn decorators ++ callsInTypes typeParams ++ callsIn superclass ++ callsInTypes types ++
      callsInMembers members

def Member.calls : Member → List CallSite
  | .method decorators _ key _ f => callsIn decorators ++ key.calls ++ f.calls
  | .field decorators _ key types value =>
    callsIn decorators ++ key.calls ++ callsInTypes types ++ callsIn value
  | .staticBlock body => callsInStmts body
  | .indexSignature t => t.calls

def Declarator.calls : Declarator → List CallSite
  | .mk p value => p.calls ++ callsIn value

def Decl.calls : Decl → List CallSite
  | .variable _ _ _ ds => callsInDeclarators ds
  | .function _ f => f.calls
  | .classDecl _ c => c.calls
  | .typeAlias _ _ t => t.calls
  | .interface _ _ types => callsInTypes types
  | .enumDecl _ _ _ values => callsIn values
  | .namespaceDecl _ _ _ body => callsInStmts body
  | .alias .. => []

def DefaultValue.calls : DefaultValue → List CallSite
  | .function f => f.calls
  | .classDecl c => c.calls
  | .interface _ types => callsInTypes types
  | .expr e => e.calls

def Stmt.calls : Stmt → List CallSite
  | .expr _ e | .throwing _ e | .exportAssign _ e => e.calls
  | .block _ body => callsInStmts body
  | .ifThen _ test yes no => test.calls ++ yes.calls ++ callsInStmts no
  | .doWhile _ body test => body.calls ++ test.calls
  | .whileDo _ test body => test.calls ++ body.calls
  | .forLoop _ first test update body =>
    callsInStmts first ++ callsIn test ++ callsIn update ++ body.calls
  | .forEach _ left right body => left.calls ++ right.calls ++ body.calls
  | .ret _ value => callsIn value
  | .switchOn _ value cases => value.calls ++ callsInCases cases
  | .attempt _ body caught handler final =>
    callsInStmts body ++ callsInPatterns caught ++ callsInStmts handler ++ callsInStmts final
  | .labeled _ _ body => body.calls
  | .inScope _ object body => object.calls ++ body.calls
  | .decl d | .exportDecl _ d => d.calls
  | .exportDefault _ value => value.calls
  | .empty _ | .jump .. | .debugger _ | .imports .. | .exportList .. | .exportAll ..
  | .exportGlobal .. => []

def Case.calls : Case → List CallSite
  | .mk test body => callsIn test ++ callsInStmts body

def callsIn : List Expr → List CallSite
  | [] => []
  | e :: more => e.calls ++ callsIn more

def callsInTypes : List TypeTree → List CallSite
  | [] => []
  | t :: more => t.calls ++ callsInTypes more

def callsInElements : List Element → List CallSite
  | [] => []
  | e :: more => e.calls ++ callsInElements more

def callsInProperties : List Property → List CallSite
  | [] => []
  | p :: more => p.calls ++ callsInProperties more

def callsInPatterns : List Pattern → List CallSite
  | [] => []
  | p :: more => p.calls ++ callsInPatterns more

def callsInPatternProperties : List PatternProperty → List CallSite
  | [] => []
  | p :: more => p.calls ++ callsInPatternProperties more

def callsInParams : List Param → List CallSite
  | [] => []
  | p :: more => p.calls ++ callsInParams more

def callsInMembers : List Member → List CallSite
  | [] => []
  | m :: more => m.calls ++ callsInMembers more

def callsInDeclarators : List Declarator → List CallSite
  | [] => []
  | d :: more => d.calls ++ callsInDeclarators more

def callsInStmts : List Stmt → List CallSite
  | [] => []
  | s :: more => s.calls ++ callsInStmts more

def callsInCases : List Case → List CallSite
  | [] => []
  | c :: more => c.calls ++ callsInCases more

end

/-- A call comes before those inside it, and the parts of a node come in the order of its fields. -/
def Program.calls (p : Program) : List CallSite := callsInStmts p.body

end Standin.Script
