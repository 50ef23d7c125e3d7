import SampleTypes.Source.Pattern

/-!
# The grammar of Python source

The grammar as a table: one pattern for each rule, in the groups statements, patterns of `match`
statements, expressions and targets of assignments. The order of choices is part of the grammar: a
place is read by the first choice that fits.

Binary operators are not told apart by rank where rank does not change what is accepted.
-/

namespace SampleTypes.Source

/-- The rules of the grammar. -/
inductive Rule where
  -- whole texts
  | file | single
  -- statements
  | statements | statement | simpleStatements | simpleStatement | block
  | assignment | value | returnStatement | raiseStatement | deleteStatement | assertStatement
  | importStatement | importFrom | importedNames | importedName | importedModule | dottedName
  | globalStatement | typeAlias | typeParameters | typeParameter
  | decorated | decorator | functionDefinition | classDefinition
  | parameters | kwParameter | plainParameter | variadicParameter | defaultParameter | anyParameter
  | lambdaParameters | lambdaKwParameter | plainLambda | defaultLambda | anyLambda
  | ifStatement | elifClause | elseClause | whileStatement | forStatement
  | withStatement | withItem
  | tryStatement | groupStatement | handler | groupHandler | finallyClause
  | matchStatement | subject | caseClause | guard
  -- patterns
  | patterns | pattern | orPattern | closedPattern | literalPattern | complexNumber | signedNumber
  | captureTarget | dottedValue | sequenceItems | openSequence | starPattern
  | mappingPattern | mappingItem | mappingRest | classPattern | keywordPattern
  -- expressions
  | expressions | starExpressions | starExpression | expression | conditional | lambda
  | starNamedExpressions | starNamedExpression | namedExpression | assignmentExpression
  | yieldExpression | fromClause
  | disjunction | conjunction | inversion | comparison | operand | factor | power | awaited
  | primary | atom | name | slices | slice | arguments | classArguments | positional | keywords
  | keywordOrStarred | keywordOrUnpacked | keywordArgument | starredArgument
  | strings | formatted | formatField | template | templateField
  | tuple | group | generator | bareGenerator | list | listComprehension
  | dictionary | set | dictionaryComprehension | setComprehension | entry | entryOrUnpacked
  | comprehension
  -- targets
  | starTargets | starTarget | starTuple | starAtom | partTarget | targetPrimary
  | singleTarget | deletions | deletion
  deriving DecidableEq, Hashable, Repr, Inhabited

namespace Grammar

open Pattern Rule

/-- A word or a mark stands for the pattern of a token with this text. -/
instance : Coe String (Pattern Rule) := ⟨fun word => .token (.text word)⟩

/-- A rule stands for the pattern that it accepts. -/
instance : Coe Rule (Pattern Rule) := ⟨.rule⟩

/-- A word or a mark stands for the condition that a token has this text. -/
instance : Coe String Test := ⟨.text⟩

/-! ## Building blocks -/

/-- A part once or more. -/
def repeated (part : Pattern Rule) : Pattern Rule := .seq [part, .many part]

/-- A part once or more, with commas between. -/
def listed (part : Pattern Rule) : Pattern Rule := .seq [part, .many (.seq [",", part])]

/-- A part once or more, with commas between and perhaps one at the end. -/
def closed (part : Pattern Rule) : Pattern Rule :=
  .seq [part, .many (.seq [",", part]), .option ","]

/-- The end of a line. -/
def newline : Pattern Rule := .token (.kind .newline "NEWLINE")

/-- The end of the source. -/
def finish : Pattern Rule := .token (.kind .finish "EOF")

/-- A number of any kind. -/
def number : Pattern Rule := .token (.kind .number "number")

/-- The starts of strings. -/
def stringStarts : List Test :=
  [.kind .string "STRING", .kind .formatStart "f\"", .kind .templateStart "t\""]

/-- Whether more of a target follows. -/
def moreTarget : List Test := ["(", "[", "."]

/-- The marks of assignments that compute. -/
def augmented : List (Pattern Rule) :=
  ["+=", "-=", "*=", "@=", "/=", "%=", "&=", "|=", "^=", "<<=", ">>=", "**=", "//="]

/-- The operators between two operands that bind more tightly than a comparison. -/
def operators : List (Pattern Rule) :=
  ["|", "^", "&", "<<", ">>", "+", "-", "*", "/", "//", "%", "@"]

/-- The comparisons. -/
def comparisons : List (Pattern Rule) :=
  ["==", "!=", "<=", "<", ">=", ">", .seq ["not", "in"], "in", .seq ["is", "not"], "is"]

/-- Parameters up to the mark that closes them: those in front of a slash, those with and without
defaults, then those behind a star. `variadic` is what else may stand directly behind the star. -/
def parameterList (closer : Test) (plain withDefault any unpacked : Rule)
    (variadic : List (Pattern Rule)) : Pattern Rule :=
  let slash : Pattern Rule := .seq ["/", .first [",", .ahead [closer]]]
  let rest : Pattern Rule := .first
    [.seq ["*", .first (plain :: variadic), .many any, .option unpacked],
     .seq ["*", ",", repeated any, .option unpacked],
     unpacked]
  .first
    [.seq [repeated plain, slash, .many plain, .many withDefault, .option rest],
     .seq [.many plain, repeated withDefault, slash, .many withDefault, .option rest],
     .seq [repeated plain, .many withDefault, .option rest],
     .seq [repeated withDefault, .option rest],
     rest]

/-! ## The rules -/

/-- The pattern of a rule. -/
def body : Rule → Pattern Rule
  -- whole texts
  | .file => .seq [.option statements, finish]
  | .single => .seq [statement, finish]
  -- statements
  | .statements => repeated statement
  | .statement => .first
    [decorated,
     .seq [.ahead ["def", "async"], functionDefinition],
     .seq [.ahead ["if"], ifStatement],
     .seq [.ahead ["class"], classDefinition],
     .seq [.ahead ["with", "async"], withStatement],
     .seq [.ahead ["for", "async"], forStatement],
     .seq [.ahead ["try"], .first [tryStatement, groupStatement]],
     .seq [.ahead ["while"], whileStatement],
     matchStatement,
     simpleStatements]
  | .simpleStatements =>
    .seq [simpleStatement, .many (.seq [";", simpleStatement]), .option ";", newline]
  | .simpleStatement => .first
    [assignment,
     .seq [.ahead ["type"], typeAlias],
     starExpressions,
     .seq [.ahead ["return"], returnStatement],
     .seq [.ahead ["import"], importStatement],
     .seq [.ahead ["from"], importFrom],
     .seq [.ahead ["raise"], raiseStatement],
     "pass",
     .seq [.ahead ["del"], deleteStatement],
     .seq [.ahead ["yield"], yieldExpression],
     .seq [.ahead ["assert"], assertStatement],
     "break",
     "continue",
     .seq [.ahead ["global", "nonlocal"], globalStatement]]
  | .block => .first
    [.seq [newline, .token (.kind .indent "INDENT"), statements, .token (.kind .dedent "DEDENT")],
     simpleStatements]
  | .assignment => .first
    [.seq [name, ":", expression, .option (.seq ["=", value])],
     .seq [partTarget, ":", expression, .option (.seq ["=", value])],
     .seq [repeated (.seq [starTargets, "="]), value, .notAhead ["="]],
     .seq [singleTarget, .first augmented, value]]
  | .value => .first [yieldExpression, starExpressions]
  | .returnStatement => .seq ["return", .option starExpressions]
  | .raiseStatement => .seq ["raise", .option (.seq [expression, .option fromClause])]
  | .deleteStatement => .seq ["del", deletions, .ahead [";", .kind .newline "NEWLINE"]]
  | .assertStatement => .seq ["assert", expression, .option (.seq [",", expression])]
  | .importStatement => .seq ["import", listed importedModule]
  | .importFrom => .first
    [.seq ["from", .many (.first ["...", "."]), dottedName, "import", importedNames],
     .seq ["from", repeated (.first ["...", "."]), "import", importedNames]]
  | .importedNames => .first
    [.seq ["(", closed importedName, ")"], .seq [listed importedName, .notAhead [","]], "*"]
  | .importedName => .seq [name, .option (.seq ["as", name])]
  | .importedModule => .seq [dottedName, .option (.seq ["as", name])]
  | .dottedName => .seq [name, .many (.seq [".", name])]
  | .globalStatement => .seq [.first ["global", "nonlocal"], listed name]
  | .typeAlias => .seq ["type", name, .option typeParameters, "=", expression]
  | .typeParameters => .seq ["[", closed typeParameter, "]"]
  | .typeParameter => .first
    [.seq [name, .option (.seq [":", expression]), .option (.seq ["=", expression])],
     .seq ["*", name, .option (.seq ["=", starExpression])],
     .seq ["**", name, .option (.seq ["=", expression])]]
  | .decorated => .seq [repeated decorator, .first [functionDefinition, classDefinition]]
  | .decorator => .seq ["@", namedExpression, newline]
  | .functionDefinition =>
    .seq [.option "async", "def", name, .option typeParameters, "(", .option parameters, ")",
      .option (.seq ["->", expression]), ":", block]
  | .classDefinition =>
    .seq ["class", name, .option typeParameters, .option (.seq ["(", .option classArguments, ")"]),
      ":", block]
  | .parameters =>
    parameterList ")" plainParameter defaultParameter anyParameter kwParameter
      [variadicParameter]
  | .kwParameter => .seq ["**", plainParameter]
  | .plainParameter =>
    .seq [name, .option (.seq [":", expression]), .first [",", .ahead [")"]]]
  | .variadicParameter => .seq [name, ":", starExpression, .first [",", .ahead [")"]]]
  | .defaultParameter =>
    .seq [name, .option (.seq [":", expression]), "=", expression, .first [",", .ahead [")"]]]
  | .anyParameter =>
    .seq [name, .option (.seq [":", expression]), .option (.seq ["=", expression]),
      .first [",", .ahead [")"]]]
  | .lambdaParameters =>
    parameterList ":" plainLambda defaultLambda anyLambda lambdaKwParameter []
  | .lambdaKwParameter => .seq ["**", plainLambda]
  | .plainLambda => .seq [name, .first [",", .ahead [":"]]]
  | .defaultLambda => .seq [name, "=", expression, .first [",", .ahead [":"]]]
  | .anyLambda => .seq [name, .option (.seq ["=", expression]), .first [",", .ahead [":"]]]
  | .ifStatement =>
    .seq ["if", namedExpression, ":", block, .option (.first [elifClause, elseClause])]
  | .elifClause =>
    .seq ["elif", namedExpression, ":", block, .option (.first [elifClause, elseClause])]
  | .elseClause => .seq ["else", ":", block]
  | .whileStatement => .seq ["while", namedExpression, ":", block, .option elseClause]
  | .forStatement =>
    .seq [.option "async", "for", starTargets, "in", starExpressions, ":", block,
      .option elseClause]
  | .withStatement => .first
    [.seq [.option "async", "with", "(", closed withItem, ")", ":", block],
     .seq [.option "async", "with", listed withItem, ":", block]]
  | .withItem => .first
    [.seq [expression, "as", starTarget, .ahead [",", ":", ")"]], expression]
  | .tryStatement => .first
    [.seq ["try", ":", block, finallyClause],
     .seq ["try", ":", block, repeated handler, .option elseClause, .option finallyClause]]
  | .groupStatement =>
    .seq ["try", ":", block, repeated groupHandler, .option elseClause, .option finallyClause]
  | .handler => .first
    [.seq ["except", expressions, ":", block],
     .seq ["except", expression, "as", name, ":", block],
     .seq ["except", ":", block]]
  | .groupHandler => .first
    [.seq ["except", "*", expressions, ":", block],
     .seq ["except", "*", expression, "as", name, ":", block]]
  | .finallyClause => .seq ["finally", ":", block]
  | .matchStatement =>
    .seq ["match", subject, ":", newline, .token (.kind .indent "INDENT"), repeated caseClause,
      .token (.kind .dedent "DEDENT")]
  | .subject => .first
    [.seq [starNamedExpression, ",", .option starNamedExpressions], namedExpression]
  | .caseClause => .seq ["case", patterns, .option guard, ":", block]
  | .guard => .seq ["if", namedExpression]
  -- patterns
  | .patterns => .first [openSequence, pattern]
  | .pattern => .first [.seq [orPattern, "as", captureTarget], orPattern]
  | .orPattern => .seq [closedPattern, .many (.seq ["|", closedPattern])]
  | .closedPattern => .first
    [literalPattern,
     captureTarget,
     "_",
     .seq [dottedValue, .notAhead [".", "(", "="]],
     .seq ["(", pattern, ")"],
     .seq ["[", .option sequenceItems, "]"],
     .seq ["(", .option openSequence, ")"],
     mappingPattern,
     classPattern]
  | .literalPattern => .first
    [.seq [signedNumber, .notAhead ["+", "-"]], complexNumber, strings, "None", "True", "False"]
  | .signedNumber => .first [number, .seq [.first ["-", "+"], number]]
  | .complexNumber =>
    .seq [.option (.first ["-", "+"]), .token (.number false), .first ["+", "-"],
      .token (.number true)]
  | .captureTarget => .seq [.notAhead ["_"], name, .notAhead [".", "(", "="]]
  | .dottedValue => .seq [name, repeated (.seq [".", name])]
  | .openSequence =>
    .seq [.first [starPattern, pattern], ",", .option sequenceItems]
  | .sequenceItems => closed (.first [starPattern, pattern])
  | .starPattern => .seq ["*", .first [captureTarget, "_"]]
  | .mappingPattern => .first
    [.seq ["\x7b", "\x7d"],
     .seq ["\x7b", mappingRest, .option ",", "\x7d"],
     .seq ["\x7b", listed mappingItem, ",", mappingRest, .option ",", "\x7d"],
     .seq ["\x7b", closed mappingItem, "\x7d"]]
  | .mappingItem => .seq [.first [literalPattern, dottedValue], ":", pattern]
  | .mappingRest => .seq ["**", captureTarget]
  | .classPattern =>
    let called : Pattern Rule := .first [dottedValue, name]
    .first
      [.seq [called, "(", ")"],
       .seq [called, "(", closed pattern, ")"],
       .seq [called, "(", closed keywordPattern, ")"],
       .seq [called, "(", listed pattern, ",", closed keywordPattern, ")"]]
  | .keywordPattern => .seq [name, "=", pattern]
  -- expressions
  | .expressions => closed expression
  | .starExpressions => closed starExpression
  | .starExpression => .first [.seq ["*", operand], expression]
  | .expression => .first [conditional, lambda]
  | .conditional =>
    .seq [disjunction, .option (.seq ["if", disjunction, "else", expression])]
  | .lambda => .seq ["lambda", .option lambdaParameters, ":", expression]
  | .starNamedExpressions => closed starNamedExpression
  | .starNamedExpression => .first [.seq ["*", operand], namedExpression]
  | .namedExpression => .first [assignmentExpression, .seq [expression, .notAhead [":="]]]
  | .assignmentExpression => .seq [name, ":=", expression]
  | .yieldExpression => .first
    [.seq ["yield", fromClause], .seq ["yield", .option starExpressions]]
  | .fromClause => .seq ["from", expression]
  | .disjunction => .seq [conjunction, .many (.seq ["or", conjunction])]
  | .conjunction => .seq [inversion, .many (.seq ["and", inversion])]
  | .inversion => .first [.seq ["not", inversion], comparison]
  | .comparison => .seq [operand, .many (.seq [.first comparisons, operand])]
  | .operand => .seq [factor, .many (.seq [.first operators, factor])]
  | .factor => .first [.seq [.first ["+", "-", "~"], factor], power]
  | .power => .seq [awaited, .option (.seq ["**", factor])]
  | .awaited => .first [.seq ["await", primary], primary]
  | .primary =>
    .seq [atom, .many (.first
      [.seq [".", name], generator, .seq ["(", .option arguments, ")"], .seq ["[", slices, "]"]])]
  | .atom => .first
    [name, "True", "False", "None",
     .seq [.ahead stringStarts, strings],
     number,
     .seq [.ahead ["("], .first [tuple, group, generator]],
     .seq [.ahead ["["], .first [list, listComprehension]],
     .seq [.ahead ["\x7b"],
       .first [dictionary, set, dictionaryComprehension, setComprehension]],
     "..."]
  | .name => .token .identifier
  | .slices => .first
    [.seq [slice, .notAhead [","]], closed (.first [slice, starredArgument])]
  | .slice => .first
    [.seq [.option expression, ":", .option expression, .option (.seq [":", .option expression])],
     namedExpression]
  | .arguments => .seq
    [.first
      [.seq [listed positional, .option (.seq [",", keywords])],
       keywords],
     .option ",", .ahead [")"]]
  | .classArguments => .seq
    [.first
      [.seq [listed positional, .option (.seq [",", listed keywordOrUnpacked])],
       listed keywordOrUnpacked],
     .option ",", .ahead [")"]]
  | .positional => .seq
    [.first [starredArgument, assignmentExpression, .seq [expression, .notAhead [":="]]],
     .notAhead ["="]]
  | .keywords => .first
    [.seq [listed keywordOrStarred, ",", listed keywordOrUnpacked],
     listed keywordOrStarred,
     listed keywordOrUnpacked]
  | .keywordOrStarred => .first [keywordArgument, starredArgument]
  | .keywordOrUnpacked => .first [keywordArgument, .seq ["**", expression]]
  | .keywordArgument => .seq [name, "=", expression]
  | .starredArgument => .seq ["*", expression]
  | .strings => repeated (.first [.token (.kind .string "STRING"), formatted, template])
  | .formatted =>
    .seq [.token (.kind .formatStart "f\""), .many formatField, .token (.kind .formatEnd "\"")]
  | .formatField =>
    .seq ["\x7b", .first [bareGenerator, starExpressions, yieldExpression], .option "=",
      .option (.seq ["!", .first ["r", "s", "a"]]), .option (.seq [":", .many formatField]),
      "\x7d"]
  | .template =>
    .seq [.token (.kind .templateStart "t\""), .many templateField, .token (.kind .formatEnd "\"")]
  | .templateField =>
    .seq ["\x7b", value, .option "=", .option (.seq ["!", .first ["r", "s", "a"]]),
      .option (.seq [":", .many templateField]), "\x7d"]
  | .tuple =>
    .seq ["(", .option (.seq [starNamedExpression, ",", .option starNamedExpressions]), ")"]
  | .group => .seq ["(", .first [yieldExpression, namedExpression], ")"]
  | .generator => .seq ["(", bareGenerator, ")"]
  | .bareGenerator =>
    .seq [.first [assignmentExpression, .seq [expression, .notAhead [":="]], starredArgument],
      comprehension]
  | .list => .seq ["[", .option starNamedExpressions, "]"]
  | .listComprehension => .seq ["[", starNamedExpression, comprehension, "]"]
  | .dictionary => .seq ["\x7b", .option (closed entryOrUnpacked), "\x7d"]
  | .set => .seq ["\x7b", starNamedExpressions, "\x7d"]
  | .dictionaryComprehension => .seq ["\x7b", entryOrUnpacked, comprehension, "\x7d"]
  | .setComprehension => .seq ["\x7b", starNamedExpression, comprehension, "\x7d"]
  | .entry => .seq [expression, ":", expression]
  | .entryOrUnpacked => .first [.seq ["**", operand], entry]
  | .comprehension =>
    .seq [.option "async", "for", starTargets, "in", disjunction,
      .many (.seq ["if", disjunction]), .option comprehension]
  -- targets
  | .starTargets => .first [.seq [starTarget, .notAhead [","]], closed starTarget]
  | .starTarget => .first
    [.seq ["*", .notAhead ["*"], starTarget], partTarget, starAtom]
  | .starTuple => closed starTarget
  | .starAtom => .first
    [name,
     .seq ["(", .first [partTarget, starAtom], ")"],
     .seq ["(", .option starTuple, ")"],
     .seq ["[", .option starTuple, "]"]]
  | .partTarget => .first
    [.seq [targetPrimary, ".", name, .notAhead moreTarget],
     .seq [targetPrimary, "[", slices, "]", .notAhead moreTarget]]
  | .targetPrimary =>
    .seq [atom, .ahead moreTarget, .many (.seq
      [.first
        [.seq [".", name], .seq ["[", slices, "]"], generator,
         .seq ["(", .option arguments, ")"]],
       .ahead moreTarget])]
  | .singleTarget => .first [partTarget, name, .seq ["(", singleTarget, ")"]]
  | .deletions => closed deletion
  | .deletion => .first
    [partTarget, name, .seq ["(", deletion, ")"],
     .seq ["(", .option deletions, ")"], .seq ["[", .option deletions, "]"]]

end Grammar

end SampleTypes.Source
