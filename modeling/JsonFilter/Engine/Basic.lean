import JsonFilter.Stream

namespace JsonFilter

structure Engine (ω ε : Type) where
  create : ω → Option ε × ω
  /-- Takes a program in, or says what is wrong with it. -/
  compile : ε → String → ω → (Except Document Unit × ε) × ω
  start : ε → Document → ω → Results × ω
  release : ε → ω → ω

end JsonFilter
