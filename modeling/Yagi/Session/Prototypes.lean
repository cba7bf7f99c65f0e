import Mathlib.Data.Fintype.Basic
import Yagi.Session.Globals
import Yagi.Types.Termination
import Yagi.Types.Tinfo
import Yagi.Types.Update

/-!
# The prototype of a function

The type that lies at the address of a function after a session becomes its prototype:
the convention, the names and the types that IDA knows of it.
-/

open Text Effect Store Journal

namespace Yagi

open TypeManager

/-! ## All types of a function convert -/

namespace TypeManager

variable {σ D ι : Type} {F : TypeFactory σ D} {G : TypeGraph ι} {archi : TypeArchitecture}

theorem mapM_converts [Fintype ι] (hF : F.Laws) (hacyclic : Rank.Acyclic (StructFree G archi)) (fuel : Nat)
    (hfuel : Fintype.card ι * (Fintype.card ι + 1) ≤ fuel) (s₀ : σ) (infos : List ι) (st : Session σ D)
    (hst : F.Extends s₀ st.factory) :
    ∃ types st', infos.mapM (findByTypeInfo F G archi fuel) st = .ok types st' ∧
      List.Forall₂ (Bears F G archi s₀ · · st'.factory) infos types := by
  have hreturns : ∀ i ∈ infos, ∀ s, True → ∃ d s', findByTypeInfo F G archi fuel i s = .ok d s' ∧ True := by
    intro i _ s _
    have hmeasure := measure_bound (G := G) (F := F) hacyclic s.factory i
    obtain ⟨d, s', hd⟩ := findByTypeInfo_returns hF hacyclic fuel i s (by omega)
    exact ⟨d, s', hd, trivial⟩
  obtain ⟨types, st', htypes, -⟩ := mapM_succeeds _ (fun _ => True) infos hreturns st trivial
  refine ⟨types, st', htypes, ?_⟩
  have hkeeps : ∀ i ∈ infos, ∀ s d s', F.Extends s₀ s.factory → findByTypeInfo F G archi fuel i s = .ok d s' →
      Grows F s s' ∧ F.Extends s₀ s'.factory ∧ Bears F G archi s₀ i d s'.factory := by
    intro i _ s d s' hs hd
    have hgrows := (findByTypeInfo_grows hF fuel i s s' d hd).1
    exact ⟨hgrows, hs.trans hgrows.extends_, findByTypeInfo_bears hF fuel i s s' d hs hd⟩
  exact (mapM_keeps _ _ (Bears F G archi s₀) infos (fun i d s t hext h => h.extend i d s t hext) hkeeps st st' types
    hst htypes).2.2

theorem parseFunc_extends (hF : F.Laws) (findByTypeInfo : ι → Conversion σ D D) (funcType : FuncInfo ι)
    (session session' last : Session σ D) (types : List D) (type : D)
    (htypes : Converts F findByTypeInfo funcType session session' types)
    (hparse : parseFunc F archi findByTypeInfo funcType session = .ok type last) :
    F.Extends session'.factory last.factory := by
  obtain ⟨ds, made, u, hds, hmake⟩ := parseFunc_ok archi findByTypeInfo funcType session last type hparse
  unfold Converts at htypes
  rw [htypes] at hds
  cases hds
  exact (makeNamed_grows hF _ _ _ _ _ _ rfl hmake).1.extends_

theorem update_function [Fintype ι] (hF : F.Laws) (hacyclic : Rank.Acyclic (StructFree G archi)) (fuel : Nat)
    (hfuel : Fintype.card ι * (Fintype.card ι + 1) ≤ fuel) (build : UInt64 → Option ι) (getFuncParamName : ι → List Str)
    (getPieces : σ → D → PrototypePieces D) (hpieces : GetsPieces F getPieces) (ea : UInt64) (s : Updating σ D) (i : ι)
    (funcType : FuncInfo ι) (hfunc : functionAt G build ea = some (i, funcType))
    (hnames : (getFuncParamName i).length = funcType.getFuncPrototype.tail.length) :
    ∃ types last, update F G archi (findByTypeInfo F G archi fuel) build getFuncParamName getPieces ea s =
        .ok () ⟨last, piecesOf F archi funcType (getFuncParamName i) s.session types⟩ ∧
      List.Forall₂ (Bears F G archi s.session.factory · · last.factory) funcType.getFuncPrototype types := by
  obtain ⟨types, session', htypes, hbears⟩ := mapM_converts hF hacyclic fuel hfuel s.session.factory
    funcType.getFuncPrototype (Session.after F s.session .getTypeVoid) (hF.void_extends _)
  obtain ⟨type, last, hparse, hupdate⟩ := update_of_converts getFuncParamName hpieces ea s i funcType
    types session' hfunc htypes
  rw [if_pos ((Converts.length funcType s.session session' types htypes).trans hnames.symm)] at hupdate
  refine ⟨types, last, hupdate, hbears.imp ?_⟩
  intro j d hd
  exact hd.extend j d _ _ (parseFunc_extends hF _ funcType s.session session' last types type htypes hparse)

end TypeManager

/-! ## Types of IDA -/

namespace IdaTypes

variable {ι : Type} (T : IdaTypes ι)

def getFuncParamName (i : ι) : List Str := IdaFuncInfo.paramNamesOf (T.tinfo i)

/-- A pointer stands for what it points to. -/
def pointedType (i : ι) : ι := (IdaTypeInfo.toPtr (T.tinfo i)).getD i

def functionType (i : ι) : Option ι := if (T.tinfo (T.pointedType i)).is_func then some (T.pointedType i) else none

theorem functionAt_graph (build : UInt64 → Option ι) (ea : UInt64) : functionAt T.graph build ea =
    ((build ea).bind T.functionType).map fun i => (i, IdaFuncInfo.funcInfo (T.tinfo i)) := by
  unfold functionAt functionType pointedType
  cases build ea with
  | none => rfl
  | some i =>
    simp only [Option.bind_eq_bind, Option.bind_some]
    show ((IdaTypeInfo.toFunc (T.tinfo ((IdaTypeInfo.toPtr (T.tinfo i)).getD i))).bind _) = _
    unfold IdaTypeInfo.toFunc
    split <;> rfl

theorem functionType_is_func (i func : ι) (h : T.functionType i = some func) : (T.tinfo func).is_func = true := by
  unfold functionType at h
  split at h
  · rename_i hfunc
    exact Option.some.inj h ▸ hfunc
  · simp at h

end IdaTypes

section

variable {σ D ι : Type} (F : TypeFactory σ D) (T : IdaTypes ι) (archi : TypeArchitecture)

/-- The pieces that IDA knows of a function. Without details it takes nothing and returns `void`. -/
structure Prototyped (s₀ s : σ) (i : ι) (pieces : PrototypePieces D) : Prop where
  model : pieces.model = archi.callingConv (IdaFuncInfo.getCallingConv (T.tinfo i))
  dotdotdot : pieces.dotdotdot = (T.tinfo i).is_vararg_cc
  innames : pieces.innames = T.getFuncParamName i
  types : ∀ funcInfo, (T.tinfo i).get_func_details = some funcInfo →
    TypeManager.Bears F T.graph archi s₀ funcInfo.rettype pieces.outtype s ∧
      List.Forall₂ (fun arg type => TypeManager.Bears F T.graph archi s₀ arg.type type s) funcInfo.args pieces.intypes
  untyped : (T.tinfo i).get_func_details = none → pieces.outtype = (F.exec .getTypeVoid s₀).1 ∧ pieces.intypes = []

theorem prototyped_of_bears (s : σ) (session : Session σ D) (i : ι) (types : List D)
    (h : List.Forall₂ (TypeManager.Bears F T.graph archi session.factory · · s)
      (IdaFuncInfo.getFuncPrototype (T.tinfo i)) types) :
    Prototyped F T archi session.factory s i
      (piecesOf F archi (IdaFuncInfo.funcInfo (T.tinfo i)) (T.getFuncParamName i) session types) := by
  refine ⟨rfl, rfl, rfl, ?_, ?_⟩
  · intro funcInfo hdetails
    unfold IdaFuncInfo.getFuncPrototype at h
    rw [hdetails] at h
    cases h with
    | cons hret hparams => exact ⟨hret, List.forall₂_map_left_iff.mp hparams⟩
  · intro hdetails
    unfold IdaFuncInfo.getFuncPrototype at h
    rw [hdetails] at h
    cases h
    exact ⟨rfl, rfl⟩

variable (ida : Ida ι) (db : Database ι) (events : List (SessionEvent ι)) (ea : UInt64)

/-- The type given last in a session, or the one from before it, or what IDA guesses. -/
def addressType : Option ι :=
  ((lastSome (GlobalEdit.typeAt ea) (globalEdits ida db events)).getD (db.get_tinfo ea)).or
    (ida.guess_tinfo (session ida db events) ea)

theorem build_addressType (hida : ida.SetsGlobals) :
    Keyboard.build ida (session ida db events) ea = addressType ida db events ea := by
  unfold Keyboard.build addressType
  rw [(session_liesAt ida db hida events ea).type]

/-- What an update leaves of a function. -/
def Leaves (s s' : Updating σ D) : Prop :=
  match (addressType ida db events ea).bind T.functionType with
  | none => s' = s
  | some i => Prototyped F T archi s.session.factory s'.session.factory i s'.proto

end

/-! ## The prototype of `main` -/

/-- `int`, `char`, `char *`, `int __cdecl (int argc, char *)`, and a pointer to that. -/
inductive MainType where
  | int
  | char
  | text
  | main
  | pointer
deriving DecidableEq

namespace MainType

def all : List MainType := [.int, .char, .text, .main, .pointer]

theorem mem_all (i : MainType) : i ∈ all := by cases i <;> decide

instance : Fintype MainType := Fintype.ofList all mem_all

end MainType

def plainTinfo (name : Str) (size : UInt64) : Tinfo MainType :=
  ⟨size, name, false, false, false, false, false, false, false, false, false, false, none, [], .int, .int, 0⟩

def mainTinfo : MainType → Tinfo MainType
  | .int => { plainTinfo (ascii "int") 4 with is_int := true }
  | .char => { plainTinfo (ascii "char") 1 with is_char := true }
  | .text => { plainTinfo (ascii "char *") 8 with is_ptr := true, get_pointed_object := .char }
  | .main => { plainTinfo (ascii "int (int, char *)") 1 with
      is_func := true
      get_func_details := some ⟨.int, [⟨ascii "argc", .int⟩, ⟨[], .text⟩], .CM_CC_CDECL⟩ }
  | .pointer => { plainTinfo (ascii "int (*)(int, char *)") 8 with is_ptr := true, get_pointed_object := .main }

def namedTinfo (name : Str) : Option MainType :=
  MainType.all.find? fun i => IdaTypeInfo.getName (mainTinfo i) = name

theorem mainTinfo_injective :
    ∀ i j, IdaTypeInfo.getName (mainTinfo i) = IdaTypeInfo.getName (mainTinfo j) → i = j := by
  decide

theorem mainTinfo_ne_nil : ∀ i, IdaTypeInfo.getName (mainTinfo i) ≠ [] := by
  decide

theorem namedTinfo_name (name : Str) (i : MainType) (h : namedTinfo name = some i) :
    IdaTypeInfo.getName (mainTinfo i) = name := by
  simpa using List.find?_some h

def mainIdaTypes : IdaTypes MainType :=
  ⟨mainTinfo, namedTinfo, mainTinfo_injective, mainTinfo_ne_nil, namedTinfo_name⟩

def MainType.rank : MainType → Nat
  | .int | .char => 0
  | .text => 1
  | .main => 2
  | .pointer => 3

theorem mainIdaTypes_acyclic : Rank.Acyclic (StructFree mainIdaTypes.graph archi64) := by
  apply Rank.acyclic_of_decreasing _ MainType.rank
  unfold StructFree
  decide

/-- A declaration is the name of a type. -/
def declaredTypes : TypeDatabase MainType where
  getName i := IdaTypeInfo.getName (mainTinfo i)
  parse_decl decl := namedTinfo (decl.takeWhile (· ≠ ch ';'))

def declaringIda : Ida MainType := Ida.ofTypes declaredTypes fun i => IdaTypeInfo.toFunc (mainTinfo i)

/-- `main` is an `int` at first. -/
def untypedMain : Database MainType where
  get_func ea := if ea = 0x401000 then some 0x401000 else none
  get_short_name _ := ascii "main"
  get_name _ := ascii "main"
  get_tinfo _ := some .int
  nodes _ := none

def declareMain : List (SessionEvent MainType) := [pressMain 'Y' (ascii "int (*)(int, char *);")]

def emptyPrototype : Updating CodeTable Nat := ⟨⟨CodeTable.coreTable, []⟩, ⟨[], 0, [], [], false⟩⟩

-- The pointer that was given leads to the function.
example : (addressType declaringIda untypedMain declareMain 0x401000).bind mainIdaTypes.functionType = some .main := by
  decide +kernel

end Yagi
