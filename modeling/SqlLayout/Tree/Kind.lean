/-!
# Kinds of tree nodes

The grammar role of a node. The set is closed: the grammar builds only these kinds, and a layout
treats each of them.
-/

namespace SqlLayout

/-- The grammar role of a node. -/
inductive NodeKind where
  | root
  | statement
  | clause
  | setOperatorClause
  | batchSeparator
  | containerOpen
  | containerMultiStatementBody
  | containerSingleStatementBody
  | containerContentBody
  | containerClose
  | beginEndBlock
  | tryBlock
  | catchBlock
  | beginTransaction
  | commitTransaction
  | rollbackTransaction
  | saveTransaction
  | caseStatement
  | caseInput
  | caseWhen
  | caseThen
  | caseElse
  | ifStatement
  | elseClause
  | booleanExpression
  | whileLoop
  | cursorDeclaration
  | cursorForBlock
  | cursorForOptions
  | cteWithClause
  | cteAlias
  | cteAsBlock
  | ddlDeclareBlock
  | ddlProceduralBlock
  | ddlOtherBlock
  | ddlAsBlock
  | ddlParens
  | ddlReturns
  | ddlDetailParens
  | ddlWithClause
  | triggerCondition
  | permissionsBlock
  | permissionsDetail
  | permissionsTarget
  | permissionsRecipient
  | mergeClause
  | mergeTarget
  | mergeUsing
  | mergeCondition
  | mergeWhen
  | mergeThen
  | mergeAction
  | selectionTarget
  | selectionTargetParens
  | joinTarget
  | joinOn
  | expressionParens
  | functionParens
  | inParens
  | and
  | or
  | between
  | lowerBound
  | upperBound
  | functionKeyword
  | dataTypeKeyword
  | compoundKeyword
  | otherKeyword
  | label
  | pseudoName
  | whiteSpace
  | other
  | lineComment
  | slashComment
  | blockComment
  | string
  | nationalString
  | quotedString
  | bracketName
  | comma
  | period
  | semicolon
  | scopeResolutionOperator
  | asterisk
  | equalsSign
  | alphaOperator
  | otherOperator
  | number
  | monetaryValue
  | binaryValue
deriving DecidableEq, Repr, Inhabited

namespace NodeKind

def all : List NodeKind := [
  root, statement, clause, setOperatorClause, batchSeparator, containerOpen,
  containerMultiStatementBody, containerSingleStatementBody, containerContentBody, containerClose,
  beginEndBlock, tryBlock, catchBlock, beginTransaction, commitTransaction, rollbackTransaction,
  saveTransaction, caseStatement, caseInput, caseWhen, caseThen, caseElse, ifStatement,
  elseClause, booleanExpression, whileLoop, cursorDeclaration, cursorForBlock, cursorForOptions,
  cteWithClause, cteAlias, cteAsBlock, ddlDeclareBlock, ddlProceduralBlock, ddlOtherBlock,
  ddlAsBlock, ddlParens, ddlReturns, ddlDetailParens, ddlWithClause, triggerCondition,
  permissionsBlock, permissionsDetail, permissionsTarget, permissionsRecipient, mergeClause,
  mergeTarget, mergeUsing, mergeCondition, mergeWhen, mergeThen, mergeAction, selectionTarget,
  selectionTargetParens, joinTarget, joinOn, expressionParens, functionParens, inParens, and, or,
  between, lowerBound, upperBound, functionKeyword, dataTypeKeyword, compoundKeyword,
  otherKeyword, label, pseudoName, whiteSpace, other, lineComment, slashComment, blockComment,
  string, nationalString, quotedString, bracketName, comma, period, semicolon,
  scopeResolutionOperator, asterisk, equalsSign, alphaOperator, otherOperator, number,
  monetaryValue, binaryValue]

def name : NodeKind → String
  | root => "root"
  | statement => "statement"
  | clause => "clause"
  | setOperatorClause => "set_operator_clause"
  | batchSeparator => "batch_separator"
  | containerOpen => "container_open"
  | containerMultiStatementBody => "container_multi_statement_body"
  | containerSingleStatementBody => "container_single_statement_body"
  | containerContentBody => "container_content_body"
  | containerClose => "container_close"
  | beginEndBlock => "begin_end_block"
  | tryBlock => "try_block"
  | catchBlock => "catch_block"
  | beginTransaction => "begin_transaction"
  | commitTransaction => "commit_transaction"
  | rollbackTransaction => "rollback_transaction"
  | saveTransaction => "save_transaction"
  | caseStatement => "case_statement"
  | caseInput => "case_input"
  | caseWhen => "case_when"
  | caseThen => "case_then"
  | caseElse => "case_else"
  | ifStatement => "if_statement"
  | elseClause => "else_clause"
  | booleanExpression => "boolean_expression"
  | whileLoop => "while_loop"
  | cursorDeclaration => "cursor_declaration"
  | cursorForBlock => "cursor_for_block"
  | cursorForOptions => "cursor_for_options"
  | cteWithClause => "cte_with_clause"
  | cteAlias => "cte_alias"
  | cteAsBlock => "cte_as_block"
  | ddlDeclareBlock => "ddl_declare_block"
  | ddlProceduralBlock => "ddl_procedural_block"
  | ddlOtherBlock => "ddl_other_block"
  | ddlAsBlock => "ddl_as_block"
  | ddlParens => "ddl_parens"
  | ddlReturns => "ddl_returns"
  | ddlDetailParens => "ddl_detail_parens"
  | ddlWithClause => "ddl_with_clause"
  | triggerCondition => "trigger_condition"
  | permissionsBlock => "permissions_block"
  | permissionsDetail => "permissions_detail"
  | permissionsTarget => "permissions_target"
  | permissionsRecipient => "permissions_recipient"
  | mergeClause => "merge_clause"
  | mergeTarget => "merge_target"
  | mergeUsing => "merge_using"
  | mergeCondition => "merge_condition"
  | mergeWhen => "merge_when"
  | mergeThen => "merge_then"
  | mergeAction => "merge_action"
  | selectionTarget => "selection_target"
  | selectionTargetParens => "selection_target_parens"
  | joinTarget => "join_target"
  | joinOn => "join_on"
  | expressionParens => "expression_parens"
  | functionParens => "function_parens"
  | inParens => "in_parens"
  | and => "and"
  | or => "or"
  | between => "between"
  | lowerBound => "lower_bound"
  | upperBound => "upper_bound"
  | functionKeyword => "function_keyword"
  | dataTypeKeyword => "data_type_keyword"
  | compoundKeyword => "compound_keyword"
  | otherKeyword => "other_keyword"
  | label => "label"
  | pseudoName => "pseudo_name"
  | whiteSpace => "white_space"
  | other => "other"
  | lineComment => "single_line_comment"
  | slashComment => "single_line_comment_c_style"
  | blockComment => "multi_line_comment"
  | string => "string"
  | nationalString => "national_string"
  | quotedString => "quoted_string"
  | bracketName => "bracket_quoted_name"
  | comma => "comma"
  | period => "period"
  | semicolon => "semicolon"
  | scopeResolutionOperator => "scope_resolution_operator"
  | asterisk => "asterisk"
  | equalsSign => "equals_sign"
  | alphaOperator => "alpha_operator"
  | otherOperator => "other_operator"
  | number => "number"
  | monetaryValue => "monetary_value"
  | binaryValue => "binary_value"

def ofName? (name : String) : Option NodeKind :=
  all.find? fun kind => kind.name == name

def isComment : NodeKind → Bool
  | lineComment | slashComment | blockComment => true
  | _ => false

def isTrivia (kind : NodeKind) : Bool :=
  kind == whiteSpace || kind.isComment

def isParens : NodeKind → Bool
  | expressionParens | functionParens | inParens | ddlParens | ddlDetailParens
  | selectionTargetParens => true
  | _ => false

/-- A container that may open a statement without being its first meaningful element. -/
def isWrapper : NodeKind → Bool
  | clause | ddlProceduralBlock | ddlOtherBlock | ddlDeclareBlock => true
  | _ => false

end NodeKind

end SqlLayout
