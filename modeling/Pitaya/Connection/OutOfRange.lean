import Pitaya.Connection.Model

/-!
# Where `std::out_of_range` comes from

`unordered_map::at` on the route dictionary is the only place that lets the exception escape:
the encoder throws it exactly for a route that is not in the dictionary, and no other function
that runs on the worker thread does.
-/

namespace Pitaya
open Pitaya.Protocol Pitaya.Stream Pitaya.Connection

namespace Protocol

theorem newData_eq_error {msg : Message} {routeDict : RouteDict} {f : Fault}
    (h : newData msg routeDict = .error f) : msg.route ∉ routeDict ∧ f = .outOfRange := by
  unfold newData Message.serializeInto at h
  simp only [Message.appendId_eq] at h
  cases hl : AList.lookup msg.route routeDict with
  | some code =>
    simp only [at?, hl] at h
    cases h
  | none =>
    simp only [at?, hl] at h
    exact ⟨AList.lookup_eq_none.mp hl, (Except.error.inj h).symm⟩

theorem readAt_ne_outOfRange (buf : Bytes) (i : ℕ) : readAt buf i ≠ .error .outOfRange := by
  unfold readAt
  split <;> simp

theorem readVarint_ne_outOfRange (bytes : Bytes) (k id : ℕ) :
    readVarint bytes k id ≠ .error .outOfRange := by
  induction bytes generalizing k id with
  | nil => simp [readVarint]
  | cons b bytes ih =>
    simp only [readVarint]
    split_ifs
    · simp
    · simp
    · exact ih _ _

theorem readRoute_ne_outOfRange (type : MessageType) (flag : UInt8) (buf : Bytes)
    (codeToRoute : UnorderedMap ℤ Bytes) (offset : ℕ) :
    readRoute type flag buf codeToRoute offset ≠ .error .outOfRange := by
  unfold readRoute
  split_ifs
  · refine bind_ne_error (readAt_ne_outOfRange _ _) fun _ => ?_
    refine bind_ne_error (readAt_ne_outOfRange _ _) fun _ => ?_
    dsimp only
    split <;> simp [pure, Except.pure]
  · refine bind_ne_error (readAt_ne_outOfRange _ _) fun _ => ?_
    refine bind_ne_error (readAt_ne_outOfRange _ _) fun _ => ?_
    simp [pure, Except.pure]
  · simp

theorem Message.deserialize_ne_outOfRange (decompress : Bytes → ℤ × Bytes) (buf : Bytes)
    (codeToRoute : UnorderedMap ℤ Bytes) :
    deserialize decompress buf codeToRoute ≠ .error .outOfRange := by
  unfold deserialize
  split_ifs
  · simp
  · refine bind_ne_error (readAt_ne_outOfRange _ _) fun flag => ?_
    dsimp only
    split_ifs
    · simp [pure, Except.pure]
    · refine bind_ne_error ?_ fun ⟨id, offset⟩ => ?_
      · unfold readId
        split_ifs
        · exact bind_ne_error (readVarint_ne_outOfRange _ _ _) fun _ => by simp [pure, Except.pure]
        · simp
      · refine bind_ne_error (readRoute_ne_outOfRange _ _ _ _ _) fun route => ?_
        cases route with
        | none => simp [pure, Except.pure]
        | some ro =>
          refine bind_ne_error ?_ fun data => ?_
          · unfold readData
            split_ifs <;> simp
          · cases data <;> simp [pure, Except.pure]

end Protocol

namespace Stream

theorem readSlice_ne_outOfRange (buf : Bytes) (start length : ℕ) :
    readSlice buf start length ≠ .error .outOfRange := by
  unfold readSlice
  split_ifs <;> simp

theorem parsePacket_ne_outOfRange (build : Build) (rb : ReadBuffer) (offset : ℕ) :
    parsePacket build rb offset ≠ .error .outOfRange := by
  unfold parsePacket
  refine bind_ne_error (Build.assert_ne_outOfRange _ _) fun _ => ?_
  refine bind_ne_error (readAt_ne_outOfRange _ _) fun b => ?_
  cases packetTypeFromByte b with
  | none => simp [pure, Except.pure]
  | some type =>
    refine bind_ne_error (readAt_ne_outOfRange _ _) fun _ => ?_
    refine bind_ne_error (readAt_ne_outOfRange _ _) fun _ => ?_
    refine bind_ne_error (readAt_ne_outOfRange _ _) fun _ => ?_
    dsimp only
    split_ifs
    · simp [pure, Except.pure]
    · cases type with
      | handshake | data =>
        exact bind_ne_error (readSlice_ne_outOfRange _ _ _) fun _ => by simp [pure, Except.pure]
      | handshakeAck | heartbeat | kick =>
        exact bind_ne_error (Build.assert_ne_outOfRange _ _) fun _ => by simp [pure, Except.pure]

theorem parse_ne_outOfRange (build : Build) (rb : ReadBuffer) :
    parsePacketsFromReadBuffer build rb ≠ .faulted .outOfRange := by
  have hloop (fuel : ℕ) (s : ℕ × List Packet) :
      Loop.run (parseBody build rb) fuel s ≠ some (.faulted .outOfRange) := by
    induction fuel generalizing s with
    | zero => simp [Loop.run]
    | succ fuel ih =>
      obtain ⟨offset, packets⟩ := s
      by_cases hsize : rb.readBufferHead - offset < kPacketHeaderSize
      · rw [Loop.run_succ_of_exit (parseBody_of_lt packets hsize)]
        simp
      · have hbody := parseBody_of_le build packets hsize
        cases hp : parsePacket build rb offset with
        | error f =>
          rw [hp] at hbody
          rw [Loop.run_succ_of_exit hbody]
          intro heq
          obtain rfl : f = .outOfRange := by simpa using heq
          exact parsePacket_ne_outOfRange build rb offset hp
        | ok parsed =>
          rw [hp] at hbody
          cases parsed with
          | invalid | incomplete =>
            rw [Loop.run_succ_of_exit hbody]
            simp
          | packet p size | unexpected =>
            rw [Loop.run_succ_of_continue hbody]
            exact ih _
  unfold parsePacketsFromReadBuffer
  split
  · next exit hexit =>
    rintro rfl
    exact hloop _ _ hexit
  · simp

theorem completeReceive_ne_outOfRange (build : Build) (rb : ReadBuffer) (start : ℕ)
    (result : Except ErrorCode Bytes) :
    (completeReceive build rb start result).2 ≠ .fault .outOfRange := by
  unfold completeReceive
  split
  · simp
  · next bytes =>
    dsimp only
    split
    · next f hf =>
      rintro heq
      obtain rfl : f = .outOfRange := by simpa using heq
      exact Build.assert_ne_outOfRange _ _ hf
    · next f hf _ =>
      rintro heq
      obtain rfl : f = .outOfRange := by simpa using heq
      exact Build.assert_ne_outOfRange _ _ hf
    · have hparse := parse_ne_outOfRange build (rb.store start bytes)
      unfold dispatchParse
      split
      · simp
      · simp
      · simp
      · next f hf =>
        rintro heq
        obtain rfl : f = .outOfRange := by simpa using heq
        exact hparse hf

theorem SendSide.runPosted_ne_outOfRange {σ : Type} (build : Build) (s : SendSide σ) :
    s.runPosted build ≠ some (.error .outOfRange) := by
  unfold runPosted
  split
  · simp
  · next handler posted hp =>
    intro heq
    refine absurd (Option.some.inj heq) ?_
    unfold sendNextPacket
    split
    · exact bind_ne_error (Build.assert_ne_outOfRange _ _) fun _ => by
        simp [throw, throwThe, MonadExceptOf.throw]
    · exact bind_ne_error (Build.assert_ne_outOfRange _ _) fun _ => by simp [pure, Except.pure]

end Stream

namespace Connection

namespace Json

theorem hasMember_ne_outOfRange (name : Bytes) (v : Json) :
    v.hasMember name ≠ .error .outOfRange := by
  cases v <;> simp [hasMember]

theorem get_ne_outOfRange (name : Bytes) (v : Json) : v.get name ≠ .error .outOfRange := by
  cases v with
  | object members =>
    simp only [get]
    split <;> simp
  | null | bool | int | double | string | array => simp [get]

theorem getInt_ne_outOfRange (v : Json) : v.getInt ≠ .error .outOfRange := by
  unfold getInt
  split
  · split_ifs <;> simp
  · simp

theorem getUint64_ne_outOfRange (v : Json) : v.getUint64 ≠ .error .outOfRange := by
  unfold getUint64
  split
  · split_ifs <;> simp
  · simp

end Json

theorem collectRoutes_ne_outOfRange (members : List (Bytes × Json)) (dict : RouteDict) :
    collectRoutes members dict ≠ .error .outOfRange := by
  induction members generalizing dict with
  | nil => simp [collectRoutes]
  | cons m members ih =>
    obtain ⟨name, v⟩ := m
    simp only [collectRoutes]
    split_ifs
    · exact bind_ne_error (Json.getInt_ne_outOfRange v) fun _ => ih _
    · exact ih _

theorem readSerializer_ne_outOfRange (sys : Json) : readSerializer sys ≠ .error .outOfRange := by
  unfold readSerializer
  refine bind_ne_error (Json.hasMember_ne_outOfRange _ _) fun has => ?_
  split_ifs
  · refine bind_ne_error (Json.get_ne_outOfRange _ _) fun v => ?_
    cases v <;> simp [Json.isString, Json.getString, pure, Except.pure]
  · simp [pure, Except.pure]

theorem readRouteDict_ne_outOfRange (sys : Json) : readRouteDict sys ≠ .error .outOfRange := by
  unfold readRouteDict
  refine bind_ne_error (Json.hasMember_ne_outOfRange _ _) fun has => ?_
  split_ifs
  · refine bind_ne_error (Json.get_ne_outOfRange _ _) fun v => ?_
    cases v with
    | object members => exact bind_ne_error (by simp [Json.getObject]) fun _ =>
        collectRoutes_ne_outOfRange _ _
    | null | bool | int | double | string | array => simp [Json.isObject, pure, Except.pure]
  · simp [pure, Except.pure]

theorem readHandshake_ne_outOfRange (env : Env) (text : Bytes) :
    readHandshake env text ≠ .error .outOfRange := by
  unfold readHandshake
  split
  · simp
  · refine bind_ne_error (Json.hasMember_ne_outOfRange _ _) fun has => ?_
    split_ifs
    · simp [pure, Except.pure]
    refine bind_ne_error (Json.get_ne_outOfRange _ _) fun sys => ?_
    refine bind_ne_error (Json.hasMember_ne_outOfRange _ _) fun has => ?_
    split_ifs
    · simp [pure, Except.pure]
    refine bind_ne_error (Json.get_ne_outOfRange _ _) fun heartbeat => ?_
    split_ifs
    · simp [pure, Except.pure]
    refine bind_ne_error (readSerializer_ne_outOfRange _) fun _ => ?_
    refine bind_ne_error (readRouteDict_ne_outOfRange _) fun _ => ?_
    exact bind_ne_error (Json.getUint64_ne_outOfRange _) fun _ => by simp [pure, Except.pure]

end Connection

end Pitaya
