import Yagi.ControlFlowGuard.Spec
import Yagi.Perform

/-!
# The decompiler of a program (`GhidraDecompiler::build`)

IDA knows the processor and the compiler. They choose the language of Ghidra, and the
actions and rules that Yagi adds to it.
-/

open Text

namespace Yagi

/-! ## The compiler -/

inductive Compiler.Language where
  | X86_WINDOWS
  | X86_GCC
  | X86
  | ARM
  | PPC
  | MIPS
  | SPARC
  | ATMEL
  | P6502
  | Z80
  | eBPF
deriving DecidableEq, Repr

inductive Compiler.Endianess where
  | BE
  | LE
deriving DecidableEq, Repr

inductive Compiler.Mode where
  | M16
  | M24
  | M32
  | M64
deriving DecidableEq, Repr

structure Compiler where
  language : Compiler.Language
  endianess : Compiler.Endianess
  mode : Compiler.Mode
deriving DecidableEq, Repr

inductive Processor where
  | PLFM_386
  | PLFM_ARM
  | PLFM_PPC
  | PLFM_MIPS
  | PLFM_SPARC
  | PLFM_AVR
  | PLFM_6502
  | PLFM_Z80
  | other (id : Nat)
deriving DecidableEq, Repr

inductive CompilerId where
  | COMP_MS
  | COMP_GNU
  | other (id : Nat)
deriving DecidableEq, Repr

/-- What IDA knows of the program. -/
structure ProcessorInfo where
  processor_id : Processor
  cc : CompilerId
  is_64bit : Bool
  is_16bit : Bool
  is_32bit_exactly : Bool
  is_be : Bool

structure UnknownCompiler where
  processor : Nat
deriving DecidableEq, Repr

def ProcessorInfo.language (info : ProcessorInfo) : Except UnknownCompiler Compiler.Language :=
  match info.processor_id with
  | .PLFM_386 => .ok (match info.cc with
    | .COMP_MS => .X86_WINDOWS
    | .COMP_GNU => .X86_GCC
    | .other _ => .X86)
  | .PLFM_ARM => .ok .ARM
  | .PLFM_PPC => .ok .PPC
  | .PLFM_MIPS => .ok .MIPS
  | .PLFM_SPARC => .ok .SPARC
  | .PLFM_AVR => .ok .ATMEL
  | .PLFM_6502 => .ok .P6502
  | .PLFM_Z80 => .ok .Z80
  | .other id => if id = 0xeb7f then .ok .eBPF else .error ⟨id⟩

/-- The last of the three tests that holds decides. -/
def ProcessorInfo.mode (info : ProcessorInfo) : Compiler.Mode :=
  if info.is_32bit_exactly then .M32
  else if info.is_16bit then .M16
  else if info.is_64bit then .M64
  else .M24

def compute_compiler (info : ProcessorInfo) : Except UnknownCompiler Compiler :=
  info.language.map fun language => ⟨language, if info.is_be then .BE else .LE, info.mode⟩

/-! ## The decompiler -/

namespace GhidraDecompiler

variable (compilerType : Compiler)

/-- The language and its variant. -/
def languageNames : Str × Str :=
  match compilerType.language, compilerType.mode with
  | .X86, .M16 => (ascii "x86", ascii "Real Mode")
  | .X86, _ => (ascii "x86", ascii "default")
  | .X86_GCC, _ => (ascii "x86", ascii "default:gcc")
  | .X86_WINDOWS, _ => (ascii "x86", ascii "default:windows")
  | .PPC, _ => (ascii "PowerPC", ascii "default")
  | .MIPS, _ => (ascii "MIPS", ascii "default")
  | .SPARC, _ => (ascii "sparc", ascii "default")
  | .P6502, _ => (ascii "6502", ascii "default")
  | .Z80, _ => (ascii "z80", ascii "default")
  | .ARM, .M64 => (ascii "AARCH64", ascii "v8A:default")
  | .ARM, _ => (ascii "ARM", ascii "v7")
  | .ATMEL, .M32 => (ascii "avr32", ascii "default")
  | .ATMEL, .M24 => (ascii "avr8", ascii "xmega")
  | .ATMEL, .M16 => (ascii "avr8", ascii "default")
  | .ATMEL, .M64 => ([], [])
  | .eBPF, _ => (ascii "eBPF", ascii "default")

def endianessName : Compiler.Endianess → Str
  | .BE => ascii "BE"
  | .LE => ascii "LE"

def modeName : Compiler.Mode → Str
  | .M16 => ascii "16"
  | .M24 => ascii "24"
  | .M32 => ascii "32"
  | .M64 => ascii "64"

def compute_sleigh_id : Str :=
  (languageNames compilerType).1 ++ ascii ":" ++ endianessName compilerType.endianess ++ ascii ":" ++
    modeName compilerType.mode ++ ascii ":" ++ (languageNames compilerType).2

def compute_default_cc : Str :=
  match compilerType.language with
  | .X86_WINDOWS => ascii "__fastcall"
  | .ARM => if compilerType.mode = .M32 then ascii "__stdcall" else ascii "__cdecl"
  | _ => ascii "__stdcall"

/-- What the architecture is built with. -/
structure Built where
  sleighId : Str
  defaultCC : Str
  injectionMap : List (Str × Str)
  extra_pool_rules : List RuleWindowsControlFlowGuard
  groups : ActionGroups

def noActions : ActionGroups := ⟨[], [], [], []⟩

/-- The injections, rules and actions of a language. -/
def ofLanguage : Compiler.Language → List (Str × Str) × List RuleWindowsControlFlowGuard × ActionGroups
  | .X86 | .X86_GCC | .X86_WINDOWS =>
    ([(ascii "alloca_probe", ascii "alloca_probe")], [⟨ascii "analysis", ascii "guard_dispatch_icall_fptr"⟩], noActions)
  | .MIPS => ([], [], noActions.addArchAction (.ActionMIPST9Optimization (ascii "t9optim")))
  | .eBPF => ([], [], noActions.addInitAction (.ActionAddeBPFSyscall (ascii "ebpfsyscall")))
  | _ => ([], [], noActions)

/-- The architecture when Ghidra can load the language. The own actions are added before `buildAction`. -/
def build : Built :=
  let (injectionMap, rules, groups) := ofLanguage compilerType.language
  ⟨compute_sleigh_id compilerType, compute_default_cc compilerType, injectionMap, rules, groups.buildAction⟩

theorem build_groups : ∃ groups : ActionGroups, (build compilerType).groups = groups.buildAction ∧
    groups.retypeAction = [] ∧ groups.renameAction = [] := by
  refine ⟨(ofLanguage compilerType.language).2.2, rfl, ?_, ?_⟩
  · cases compilerType.language <;> rfl
  · cases compilerType.language <;> rfl

-- A program of an unknown bitness is taken for one of 24 bits.
example : compute_compiler ⟨.PLFM_AVR, .other 0, false, false, false, false⟩ = .ok ⟨.ATMEL, .LE, .M24⟩ ∧
    compute_sleigh_id ⟨.ATMEL, .LE, .M24⟩ = ascii "avr8:LE:24:xmega" := by decide

end GhidraDecompiler

end Yagi
