import StackLang.ModuleText

/-!
# The power library

The module text of the library that comes with the language: one function that raises a word to
the power of another by squaring, for exponents read as unsigned.

## Main definitions

* `Wasm.powerLibrary`: the module text
-/

namespace StackLang

namespace Wasm

/-- The lines of the library. -/
def powerLibraryLines : List String :=
  [";; rerun's numeric standard library.",
    ";; exponentiate(base, exp) computes base ** exp on u32, wrapping on overflow.",
    "(module",
    "  (func $exponentiate (param $base i32) (param $exp i32) (result i32)",
    "    (local $result i32)",
    "    i32.const 1",
    "    local.set $result",
    "    block $done",
    "      loop $next",
    "        local.get $exp",
    "        i32.eqz",
    "        br_if $done",
    "        local.get $exp",
    "        i32.const 1",
    "        i32.and",
    "        if",
    "          local.get $result",
    "          local.get $base",
    "          i32.mul",
    "          local.set $result",
    "        end",
    "        local.get $base",
    "        local.get $base",
    "        i32.mul",
    "        local.set $base",
    "        local.get $exp",
    "        i32.const 1",
    "        i32.shr_u",
    "        local.set $exp",
    "        br $next",
    "      end",
    "    end",
    "    local.get $result)",
    "  (export \"exponentiate\" (func $exponentiate))",
    ")"]

/-- The module text of the library. -/
def powerLibrary : String := ModuleText.unlines powerLibraryLines

end Wasm

end StackLang
