import Formulary.Script.Basic
import Formulary.Calculus.Analysis

/-! Scripts for function analyses. The program is written out as an elementwise expression with
every operation in parentheses, so no precedence is left to the reader of the script. -/
namespace Formulary.Script
open Calculus

/-- The elementwise spelling of an operator. -/
def elementwise : Operator → String
  | .add => "+"
  | .subtract => "-"
  | .multiply => ".*"
  | .divide => "./"
  | .power => ".^"

/-- The text on top of a stack and what lies below it. -/
def popText : List String → String × List String
  | [] => ("",[])
  | t :: below => (t,below)

/-- Writes one instruction over the texts of its operands. -/
def writeStep : Instruction → List String → List String
  | .number v,stack => numberLiteral v :: stack
  | .x,stack => "x" :: stack
  | .pi,stack => "pi" :: stack
  | .negate,stack => ("(-" ++ (popText stack).1 ++ ")") :: (popText stack).2
  | .call r,stack => (r.name ++ "(" ++ (popText stack).1 ++ ")") :: (popText stack).2
  | .binary o,stack =>
    let right := popText stack
    let left := popText right.2
    ("(" ++ left.1 ++ " " ++ elementwise o ++ " " ++ right.1 ++ ")") :: left.2

/-- A program as an elementwise expression. -/
def vectorized (p : Program) : String :=
  (popText (p.foldl (fun stack i => writeStep i stack) [])).1

/-- The lines of the function that turns undefined samples into one value. -/
def sampleHelperLines : List String := [
  "function y = safe_eval(f, x)",
  "% Evaluates f elementwise; non-finite or complex values become NaN.",
  "y = f(x);",
  "if isscalar(y)",
  "    y = y * ones(size(x));",
  "end",
  "bad = ~isfinite(y) | imag(y) ~= 0;",
  "y = real(y);",
  "y(bad) = NaN;",
  "end"]

def sampleHelper : String :=
  "\n".intercalate sampleHelperLines

/-- The lines up to the plot of the function and the point. -/
def analysisLines (f : Compiled) (p : Parameters) (settings : Settings) : List String :=
  let padding := numberLiteral settings.rangePadding
  ["% ===== Trivium: function analysis =====",
    "f = @(x) " ++ vectorized f.program ++ ";",
    "x = linspace(" ++ numberLiteral p.xMin ++ ", " ++ numberLiteral p.xMax ++ ", " ++
      toString p.points ++ ");",
    "y = safe_eval(f, x);",
    "",
    "% Point evaluation",
    "x0 = " ++ numberLiteral p.x0 ++ ";",
    "fx0 = safe_eval(f, x0);",
    "",
    "% Central difference",
    "h = " ++ numberLiteral settings.derivativeStep ++ ";",
    "dfx0 = (safe_eval(f, x0 + h) - safe_eval(f, x0 - h)) / (2*h);",
    "",
    "% Trapezoid rule; sub-intervals touching an undefined sample are skipped",
    "a = " ++ numberLiteral p.a ++ "; b = " ++ numberLiteral p.b ++ ";",
    "if a == b",
    "    I = 0;",
    "else",
    "    xi = linspace(a, b, " ++ toString (max settings.integralSamples 2) ++ ");",
    "    yi = safe_eval(f, xi);",
    "    ok = isfinite(yi(1:end-1)) & isfinite(yi(2:end));",
    "    seg = 0.5 * (yi(1:end-1) + yi(2:end)) .* diff(xi);",
    "    I = sum(seg(ok));",
    "end",
    "if ~isfinite(I)",
    "    I = NaN;",
    "end",
    "",
    "% Display range over finite samples",
    "yf = y(isfinite(y));",
    "if isempty(yf)",
    "    ymin = " ++ numberLiteral settings.defaultRange.1 ++ "; ymax = " ++
      numberLiteral settings.defaultRange.2 ++ ";",
    "else",
    "    ymin = min(yf); ymax = max(yf);",
    "    if ymin == ymax",
    "        ymin = ymin - " ++ padding ++ "; ymax = ymax + " ++ padding ++ ";",
    "    end",
    "end",
    "",
    "fprintf('f(x0) = %.6f\\n', fx0);",
    "fprintf('f''(x0) = %.6f\\n', dfx0);",
    "fprintf('Integral = %.6f\\n', I);",
    "",
    "% Plot",
    "figure; plot(x, y, 'LineWidth', 2); grid on; hold on;",
    "ylim([ymin ymax]);",
    "plot(x0, fx0, 'o', 'MarkerSize', 8, 'LineWidth', 2);"]

/-- The lines that plot the tangent and shade the area, as far as they are shown. -/
def overlayLines (p : Parameters) : List String :=
  (if p.showTangent then
    ["yt = fx0 + dfx0 * (x - x0);",
      "plot(x, yt, '--', 'LineWidth', 1.5);"]
  else []) ++
  (if p.showArea then
    ["xa = linspace(min(a, b), max(a, b), 200);",
      "ya = safe_eval(f, xa);",
      "ya(~isfinite(ya)) = 0;",
      "area(xa, ya, 'FaceAlpha', 0.2, 'EdgeColor', 'none');"]
  else [])

def ofFunction (f : Compiled) (p : Parameters) (settings : Settings) : Document :=
  ⟨.function,
    analysisLines f p settings ++ overlayLines p ++
    ["title(" ++ quoted ("f(x) = " ++ f.source) ++ ");",
      "xlabel('x'); ylabel('f(x)'); hold off;",
      "",
      "% ===== Local functions =====",
      sampleHelper]⟩

end Formulary.Script
