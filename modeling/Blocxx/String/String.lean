import Blocxx.BinarySerialization.BinarySerialization
import Blocxx.Library.CMemory

/-!
This file embeds `String::ByteBuf` and the operations of `String` that copy its bytes.
-/

namespace Blocxx.Strings

open Library Library.Memory BinarySerialization

/-- `String::ByteBuf` with its class invariant. -/
structure ByteBuf where
  m_len : Nat
  m_buf : Memory
  sized : m_buf.length = m_len + 1
  terminated : Terminated m_buf

theorem ByteBuf.cString_length_le (arg : ByteBuf) : (cString arg.m_buf).length ≤ arg.m_len := by
  have shorter := arg.terminated.cString_length_lt
  rw [arg.sized] at shorter
  omega

theorem clone_sized (arg : ByteBuf) :
    (strcpy (allocate (arg.m_len + 1)) arg.m_buf).length = arg.m_len + 1 := by
  have short := arg.cString_length_le
  rw [strcpy_eq, List.length_append, List.length_map, List.length_cons, List.length_drop,
    allocate, List.length_replicate]
  omega

theorem strcpy_terminated (destination source : Memory) :
    Terminated (strcpy destination source) := by
  rw [strcpy_eq]
  exact terminated_written _ _

/-- The copy constructor of `ByteBuf`, which `clone` calls. -/
def ByteBuf.clone (arg : ByteBuf) : ByteBuf where
  m_len := arg.m_len
  m_buf := strcpy (allocate (arg.m_len + 1)) arg.m_buf
  sized := clone_sized arg
  terminated := strcpy_terminated _ _

/-- The buffer that `m_buf` of a `String` points to, and its use count. -/
structure Reference where
  object : ByteBuf
  uses : Nat

/-- `COWIntrusiveReference::getWriteLock`. -/
def Reference.getWriteLock (m_buf : Reference) : Reference :=
  if m_buf.uses = 1 then m_buf else ⟨m_buf.object.clone, 1⟩

/-- A `String` is its member `m_buf`, which may be null. -/
abbrev CowString := Option Reference

def length (str : CowString) : Nat :=
  match str with
  | some m_buf => m_buf.object.m_len
  | none => 0

/-- The memory that `c_str` points to. -/
def memory (str : CowString) : Memory :=
  match str with
  | some m_buf => m_buf.object.m_buf
  | none => [some 0]

/-- The buffer of a block of bytes and the zero that is written behind them. -/
def ByteBuf.ofBlock (bytes : Bytes) : ByteBuf where
  m_len := bytes.length
  m_buf := bytes.map some ++ [some 0]
  sized := by rw [List.length_append, List.length_map, List.length_singleton]
  terminated := terminated_written bytes []

/-- The constructor from a pointer, null or to this block, and the length of the block. -/
def ofBytes (str : Option Bytes) : CowString :=
  str.map fun bytes => ⟨.ofBlock bytes, 1⟩

/-- The copy constructor. It is the buffer of the argument with one more use. -/
def copy (arg : CowString) : CowString :=
  arg.map fun m_buf => { m_buf with uses := m_buf.uses + 1 }

/-- A call through `m_buf` in an operation that is not `const`, such as the one of `operator[]`. -/
def mutableAccess (str : CowString) : CowString := str.map Reference.getWriteLock

variable {State : Type}

def readObject (istrm : ByteStream Failure State) : Action State CowString := do
  return ofBytes (some (← BinarySerialization.readObject istrm))

/-- A zero-terminated argument. -/
structure CString where
  bytes : Bytes
  nonzero : (0 : UInt8) ∉ bytes

/-- The block that `concat` fills. -/
def concatenated (len : Nat) (str : CowString) (arg : Bytes) : Memory :=
  let bfr := store (allocate (len + 1)) 0 [0]
  match str with
  | some m_buf => strcat (strcpy bfr m_buf.getWriteLock.object.m_buf) arg
  | none => strcat bfr arg

theorem allocate_store (len : Nat) :
    store (allocate (len + 1)) 0 [0] = some 0 :: allocate len := rfl

theorem getWriteLock_length (m_buf : Reference) :
    m_buf.getWriteLock.object.m_len = m_buf.object.m_len := by
  unfold Reference.getWriteLock
  split
  · rfl
  · rfl

/-- The C string of a string, as the accesses of `concat` leave it. -/
def text (str : CowString) : Bytes :=
  match str with
  | some m_buf => cString m_buf.getWriteLock.object.m_buf
  | none => []

theorem text_length_le (str : CowString) : (text str).length ≤ length str := by
  cases str with
  | none => exact le_rfl
  | some m_buf =>
      show (cString m_buf.getWriteLock.object.m_buf).length ≤ m_buf.object.m_len
      rw [← getWriteLock_length]
      exact m_buf.getWriteLock.object.cString_length_le

theorem concatenated_eq (len : Nat) (str : CowString) (arg : Bytes) :
    concatenated len str arg =
      (text str ++ arg).map some ++
        some 0 :: allocate (len - ((text str).length + arg.length)) := by
  cases str with
  | none =>
      show strcat (([] : Bytes).map some ++ some 0 :: allocate len) arg = _
      rw [strcat_eq List.not_mem_nil, allocate, List.drop_replicate]
      show _ = _ ++ some 0 :: allocate (len - (0 + arg.length))
      rw [Nat.zero_add]
      rfl
  | some m_buf =>
      show strcat (strcpy _ _) arg = _
      rw [strcpy_eq, allocate_store, List.drop_succ_cons, strcat_eq (zero_notMem_cString _),
        allocate, List.drop_replicate, List.drop_replicate, Nat.sub_sub]
      rfl

theorem concatenated_sized (str : CowString) (arg : Bytes) :
    (concatenated (length str + arg.length) str arg).length = length str + arg.length + 1 := by
  have short := text_length_le str
  rw [concatenated_eq, List.length_append, List.length_map, List.length_append, List.length_cons,
    allocate, List.length_replicate]
  omega

theorem concatenated_terminated (len : Nat) (str : CowString) (arg : Bytes) :
    Terminated (concatenated len str arg) := by
  rw [concatenated_eq]
  exact terminated_written _ _

def concat (str : CowString) (arg : Option CString) : CowString :=
  match arg with
  | none => str
  | some arg =>
      if arg.bytes = [] then str
      else
        let len := length str + arg.bytes.length
        some ⟨⟨len, concatenated len str arg.bytes, concatenated_sized str arg.bytes,
          concatenated_terminated len str arg.bytes⟩, 1⟩

end Blocxx.Strings
