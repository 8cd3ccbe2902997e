/-! The function that a logic script carries along: it reads a formula, brings it into postfix order
and runs it over every row of an assignment matrix at once. -/
namespace Formulary.Script

/-- The lines of the function that evaluates a formula, and of the one that finds a column. -/
def formulaHelperLines : List String := [
  "function R = eval_logic_expr(expr, vars, M)",
  "% Evaluates a propositional formula for every row of the assignment matrix M.",
  "s = expr(~isspace(expr));",
  "tokens = \x7b\x7d;",
  "i = 1;",
  "while i <= length(s)",
  "    c = s(i);",
  "    if c == '(' || c == ')'",
  "        tokens\x7bend+1\x7d = c; i = i + 1;",
  "    elseif strncmp(s(i:end), '<->', 3)",
  "        tokens\x7bend+1\x7d = '<->'; i = i + 3;",
  "    elseif strncmp(s(i:end), '->', 2)",
  "        tokens\x7bend+1\x7d = '->'; i = i + 2;",
  "    elseif any(c == '~&|')",
  "        tokens\x7bend+1\x7d = c; i = i + 1;",
  "    elseif strncmp(s(i:end), 'xor(', 4)",
  "        if i + 7 > length(s) || ~any(s(i+4) == 'ABC') || s(i+5) ~= ',' || ~any(s(i+6) == 'ABC') || s(i+7) ~= ')'",
  "            error('malformed xor call at position %d', i);",
  "        end",
  "        tokens\x7bend+1\x7d = s(i:i+7); i = i + 8;",
  "    elseif any(c == 'ABC')",
  "        tokens\x7bend+1\x7d = c; i = i + 1;",
  "    else",
  "        error('invalid symbol at position %d', i);",
  "    end",
  "end",
  "",
  "% Shunting-yard: ~ and -> group to the right",
  "prec = containers.Map(\x7b'~', '&', '|', '->', '<->'\x7d, \x7b5, 4, 3, 2, 1\x7d);",
  "rightAssoc = \x7b'~', '->'\x7d;",
  "out = \x7b\x7d;",
  "ops = \x7b\x7d;",
  "for k = 1:numel(tokens)",
  "    t = tokens\x7bk\x7d;",
  "    if isKey(prec, t)",
  "        while ~isempty(ops) && isKey(prec, ops\x7bend\x7d)",
  "            p1 = prec(t);",
  "            p2 = prec(ops\x7bend\x7d);",
  "            if (ismember(t, rightAssoc) && p1 < p2) || (~ismember(t, rightAssoc) && p1 <= p2)",
  "                out\x7bend+1\x7d = ops\x7bend\x7d; ops(end) = [];",
  "            else",
  "                break;",
  "            end",
  "        end",
  "        ops\x7bend+1\x7d = t;",
  "    elseif strcmp(t, '(')",
  "        ops\x7bend+1\x7d = t;",
  "    elseif strcmp(t, ')')",
  "        while ~isempty(ops) && ~strcmp(ops\x7bend\x7d, '(')",
  "            out\x7bend+1\x7d = ops\x7bend\x7d; ops(end) = [];",
  "        end",
  "        if isempty(ops)",
  "            error('unbalanced parentheses');",
  "        end",
  "        ops(end) = [];",
  "    else",
  "        out\x7bend+1\x7d = t;",
  "    end",
  "end",
  "while ~isempty(ops)",
  "    if strcmp(ops\x7bend\x7d, '(')",
  "        error('unbalanced parentheses');",
  "    end",
  "    out\x7bend+1\x7d = ops\x7bend\x7d; ops(end) = [];",
  "end",
  "",
  "% RPN evaluation over column vectors",
  "stack = \x7b\x7d;",
  "for k = 1:numel(out)",
  "    t = out\x7bk\x7d;",
  "    switch t",
  "        case '~'",
  "            if numel(stack) < 1",
  "                error('missing operand for ~');",
  "            end",
  "            stack\x7bend\x7d = ~stack\x7bend\x7d;",
  "        case \x7b'&', '|', '->', '<->'\x7d",
  "            if numel(stack) < 2",
  "                error('missing operands for %s', t);",
  "            end",
  "            b = stack\x7bend\x7d; a = stack\x7bend-1\x7d; stack(end-1:end) = [];",
  "            switch t",
  "                case '&', v = a & b;",
  "                case '|', v = a | b;",
  "                case '->', v = ~a | b;",
  "                otherwise, v = (a == b);",
  "            end",
  "            stack\x7bend+1\x7d = v;",
  "        otherwise",
  "            if length(t) > 1",
  "                v = xor(logic_column(t(5), vars, M), logic_column(t(7), vars, M));",
  "            else",
  "                v = logic_column(t, vars, M);",
  "            end",
  "            stack\x7bend+1\x7d = v;",
  "    end",
  "end",
  "if numel(stack) ~= 1",
  "    error('invalid expression');",
  "end",
  "R = double(stack\x7b1\x7d);",
  "end",
  "",
  "function v = logic_column(name, vars, M)",
  "idx = find(strcmp(vars, name), 1);",
  "if isempty(idx)",
  "    error('variable %s is not declared', name);",
  "end",
  "v = logical(M(:, idx));",
  "end"]

def formulaHelper : String :=
  "\n".intercalate formulaHelperLines

end Formulary.Script
