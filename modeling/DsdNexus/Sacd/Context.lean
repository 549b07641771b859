import Mathlib.Data.Option.Basic

/-! # The reader context

What `sacd_t` holds, generic in the TOCs and the input, and the selection of an area.
-/

namespace DsdNexus.Sacd

/-! ## Status values -/

def sacdOk : Int := 0

def sacdUninitialized : Int := 1

def sacdIoError : Int := 2

def sacdMemoryAllocationError : Int := 3

def sacdInvalidArgument : Int := 4

def sacdNotAvailable : Int := 5

def sacdSectorReaderInitFailed : Int := 6

/-- `channel_t` -/
inductive ChannelType where
  | twoChannel
  | multiChannel
  deriving DecidableEq, Repr

/-- `sacd_t`: a master TOC of type `μ`, area TOCs of type `α` and an input of type `ι`. -/
structure Context (μ α ι : Type) where
  initialized : Bool
  input : Option ι
  masterToc : Option μ
  stAreaToc : Option α
  mcAreaToc : Option α
  sectorFormat : Int
  currentChannelType : ChannelType
  areaTocNum : UInt32
  deriving DecidableEq, Repr

namespace Context

variable {μ α ι : Type}

/-- `sacd_create` -/
def create : Context μ α ι :=
  ⟨false, none, none, none, none, -1, .twoChannel, 1⟩

/-- `sacd_get_selected_area_toc` -/
def selectedAreaToc (ctx : Context μ α ι) : Option α :=
  match ctx.currentChannelType with
  | .twoChannel => ctx.stAreaToc
  | .multiChannel => ctx.mcAreaToc

/-- The selected area after a call that wrote to it. -/
def setSelected (ctx : Context μ α ι) (area : α) : Context μ α ι :=
  match ctx.currentChannelType with
  | .twoChannel => { ctx with stAreaToc := some area }
  | .multiChannel => { ctx with mcAreaToc := some area }

@[simp] theorem selectedAreaToc_setSelected (ctx : Context μ α ι) (area : α) :
    (ctx.setSelected area).selectedAreaToc = some area := by
  unfold setSelected selectedAreaToc
  cases h : ctx.currentChannelType <;> simp

@[simp] theorem initialized_setSelected (ctx : Context μ α ι) (area : α) :
    (ctx.setSelected area).initialized = ctx.initialized := by
  unfold setSelected
  cases ctx.currentChannelType <;> rfl

end Context

end DsdNexus.Sacd
