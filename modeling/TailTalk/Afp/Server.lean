/-
  The AFP server — one handler for each command, and the session that runs them
  one after another.

  An error on the way is replied as its code.  `serve` is one turn of the loop:
  from the bytes of a command to a reply, the end of the session, or a panic.
  The data of an SPWrite exchange is an input.
-/
import TailTalk.Afp.Commands

namespace TailTalk

open Lib

/-- A command as it comes from the transport. -/
structure Server.AspCommand where
  data : Bytes
  /-- which response packets the client takes -/
  bitmap : UInt8
  /-- what the client sends when it is asked for the data of a write -/
  written : Option Bytes

namespace Server.AspCommand

/-- The data of one packet of a reply. -/
def ATP_MAX_DATA : ℕ := 578

/-- No bits stand for no restriction. -/
def maxPackets (bitmap : UInt8) : ℕ :=
  if bitmap = 0 then 8 else (List.range 8).countP fun i => bitmap.toNat.testBit i

/-- How much the client takes. -/
def maxResponseBytes (command : AspCommand) : ℕ := maxPackets command.bitmap * ATP_MAX_DATA

/-- `data.get(start..).unwrap_or(&[])` -/
def payload (command : AspCommand) (start : ℕ) : Bytes := command.data.drop start

end Server.AspCommand

/-- A result code and data. -/
structure AspCommandResponse where
  result : Bytes
  data : Bytes
deriving DecidableEq

/-- What a turn of the session ends in. -/
inductive Turn where
  | reply (response : AspCommandResponse)
  /-- a reply, and the session is over -/
  | logout (response : AspCommandResponse)
  /-- an error that the loop passes on: the session is over without a reply -/
  | failed

namespace Server

/-- The result of a command that went well. -/
def NO_ERROR : Bytes := [0, 0, 0, 0]

/-- A reply with that result. -/
def success (data : Bytes) : AspCommandResponse := ⟨NO_ERROR, data⟩

/-- `create_error_reply` -/
def errorReply (e : AfpError) : AspCommandResponse := ⟨e.code, []⟩

/-- The reply of a handler, with errors as replies. -/
def answer (handler : Afp AspCommandResponse) : Afp AspCommandResponse := do
  let result ← Proc.attempt handler
  match result with
  | .ok response => pure response
  | .error e => pure (errorReply e)

@[simp] theorem wp_answer {P : Prop} {handler : Afp AspCommandResponse}
    {Q : Except AfpError AspCommandResponse → Volume → Prop} {v : Volume} :
    Proc.wp P (answer handler) Q v ↔ Proc.wp P handler (fun r v' => Q (.ok (match r with
      | .ok response => response
      | .error e => errorReply e)) v') v := by
  simp only [answer, Proc.wp_bind, Proc.wp_attempt]
  constructor
  · refine fun h => Proc.wp_mono h fun r v' hr => ?_
    cases r <;> exact hr
  · refine fun h => Proc.wp_mono h fun r v' hr => ?_
    cases r <;> exact hr

theorem errorReply_result_ne (e : AfpError) : (errorReply e).result ≠ NO_ERROR := by
  cases e <;> decide

variable (sys : Sys) [MacRoman]

/-! ## Directories and files -/

/-- Replied with the new ID. -/
def handleCreateDir (cmd : ObjectRequest) : Afp AspCommandResponse := do
  let dirId ← Volume.createDir sys cmd.directoryId (afpPathToPosix cmd.path.value)
  pure (success (be32 (UInt32.ofNat dirId)))

/-- FPCreateFile. -/
def handleCreateFile (cmd : FPCreateFile) : Afp AspCommandResponse := do
  let _ ← Volume.createFile sys cmd.createFlag cmd.directoryId (afpPathToPosix cmd.path.value)
  pure (success [])

/-- Only copies within one volume. -/
def handleCopyFile (cmd : FPCopyFile) : Afp AspCommandResponse :=
  if cmd.srcVolumeId ≠ cmd.dstVolumeId ∧ cmd.srcVolumeId ≠ 0 ∧ cmd.dstVolumeId ≠ 0 then
    Proc.throw .paramError
  else do
    let _ ← Volume.copyFile sys cmd.srcDirectoryId (afpPathToPosix cmd.srcPath.value)
      cmd.dstDirectoryId (afpPathToPosix cmd.dstPath.value) cmd.newName.value
    pure (success [])

/-- FPDelete. -/
def handleDelete (cmd : ObjectRequest) : Afp AspCommandResponse := do
  Volume.delete sys cmd.directoryId cmd.path.value
  pure (success [])

/-- FPMoveAndRename. -/
def handleMoveAndRename (cmd : FPMoveAndRename) : Afp AspCommandResponse := do
  Volume.moveAndRename sys cmd.srcDirectoryId cmd.dstDirectoryId
    (afpPathToPosix cmd.srcPath.value) (afpPathToPosix cmd.dstPath.value) cmd.newName.value
  pure (success [])

/-- FPRename. -/
def handleRename (cmd : FPRename) : Afp AspCommandResponse := do
  Volume.rename sys cmd.directoryId (afpPathToPosix cmd.path.value) cmd.newName.value
  pure (success [])

/-! ## Parameters -/

/-- The buffer that parameters are written to. -/
def OUTPUT_BUF : ℕ := 1024

/-- The node that a request for parameters names; the parent of the root has none. -/
def nodeOf (directoryId : NodeId) (path : MacString) : Afp NodeId :=
  if directoryId = ROOT_PARENT_ID then Proc.throw .objectNotFound
  else Volume.resolveNodeLazy sys directoryId (afpPathToPosix path.value)

/-- Replied with the kind and the parameters. -/
def handleGetFileParms (cmd : ObjectRequest) : Afp AspCommandResponse := do
  let nodeId ← nodeOf sys cmd.directoryId cmd.path
  let (isDir, out, len) ← Volume.getNodeParms sys nodeId cmd.bitmap 0 (zeros (OUTPUT_BUF - 4)) 0
  if isDir then Proc.throw .objectTypeErr
  else pure (success (be16 cmd.bitmap ++ [0, 0] ++ out.take len))

/-- The same for a directory. -/
def handleGetDirParms (cmd : ObjectRequest) : Afp AspCommandResponse := do
  let nodeId ← nodeOf sys cmd.directoryId cmd.path
  let (isDir, out, len) ← Volume.getNodeParms sys nodeId 0 cmd.bitmap (zeros (OUTPUT_BUF - 4)) 0
  if isDir = false then Proc.throw .objectTypeErr
  else pure (success (be16 cmd.bitmap ++ [0, 0] ++ out.take len))

/-- The same for either. -/
def handleGetFileDirParms (cmd : FPGetFileDirParms) : Afp AspCommandResponse := do
  let nodeId ← nodeOf sys cmd.directoryId cmd.path
  let (isDir, out, len) ←
    Volume.getNodeParms sys nodeId cmd.fileBitmap cmd.dirBitmap (zeros (OUTPUT_BUF - 6)) 0
  let kind := if isDir then FileType.directory else FileType.file
  pure (success (be16 cmd.fileBitmap ++ be16 cmd.dirBitmap ++ [kind.toByte, 0] ++ out.take len))

/-- The path is resolved without the ID of a parent. -/
def handleSetFileParms (cmd : ObjectRequest) (params : Bytes) : Afp AspCommandResponse := do
  let nodeId ← Volume.resolveNodeLazy sys cmd.directoryId (afpPathToPosix cmd.path.value)
  Volume.setNodeParms sys nodeId cmd.bitmap 0 params
  pure (success [])

/-- FPSetFileDirParms. -/
def handleSetFileDirParms (cmd : ObjectRequest) (params : Bytes) : Afp AspCommandResponse := do
  let nodeId ← nodeOf sys cmd.directoryId cmd.path
  Volume.setNodeParms sys nodeId cmd.bitmap (cmd.bitmap &&& DirParm.all) params
  pure (success [])

/-- The parameters are cut out of the command again, at an offset of the handler's own. -/
def handleSetDirParms (cmd : FPSetDirParms) (data : Bytes) : Afp AspCommandResponse := do
  let nodeId ← Volume.resolveNodeLazy sys cmd.directoryId (afpPathToPosix cmd.path.value)
  let paramOffset := evenUp (9 + cmd.path.byteLen)
  let params ← Proc.lift (sliceFrom data (2 + paramOffset))
  Volume.setNodeParms sys nodeId 0 cmd.dirBitmap params
  pure (success [])

/-- Room for the bitmaps in front of a page. -/
def ENUMERATE_BUF : ℕ := 5000

/-- The reply size is what the client and the transport take, less the bitmaps. -/
def handleEnumerate (cmd : FPEnumerate) (maxResponse : ℕ) : Afp AspCommandResponse := do
  let limit := min (cmd.maxReplySize - 4) (maxResponse - 4)
  let (out, len) ←
    Volume.enumerate sys { cmd with maxReplySize := limit } (zeros (ENUMERATE_BUF - 4))
  let result := if readBe16 out = 0 then AfpError.code .objectNotFound else NO_ERROR
  pure ⟨result, be16 cmd.fileBitmap ++ be16 cmd.directoryBitmap ++ out.take len⟩

/-! ## Forks -/

/-- Replied with the reference and the parameters. -/
def handleOpenFork (forkType : ForkType) (cmd : FPOpenFork) : Afp AspCommandResponse := do
  let (out, len) ← Volume.openFork sys forkType cmd.fileBitmap cmd.accessMode cmd.directoryId
    (afpPathToPosix cmd.path.value) (zeros 256)
  pure (success (out.take len))

omit [MacRoman] in
/-- FPCloseFork. -/
def handleCloseFork (forkId : UInt16) : Afp AspCommandResponse := do
  Volume.closeFork sys forkId
  pure (success [])

omit [MacRoman] in
/-- FPSetForkParms. -/
def handleSetForkParms (cmd : FPSetForkParms) : Afp AspCommandResponse := do
  Volume.setForkParms sys cmd
  pure (success [])

/-- FPGetForkParms. -/
def handleGetForkParms (forkId : UInt16) (bitmap : Bitmap) : Afp AspCommandResponse := do
  let (out, len) ← Volume.getForkParms sys bitmap forkId (zeros 254) 0
  pure (success (be16 bitmap ++ out.take len))

omit [MacRoman] in
/-- Replied with 32 bits of the start. -/
def handleByteRangeLock (req : FPByteRangeLock) : Afp AspCommandResponse := do
  let firstByte ← Volume.byteRangeLock sys req
  pure (success (be32 firstByte))

omit [MacRoman] in
/-- The end of the fork is reported with the data before it. -/
def handleRead (cmd : FPRead) (maxResponse : ℕ) : Afp AspCommandResponse := do
  let effectiveLen := min (min cmd.reqCount maxResponse) 4624
  let (data, eof) ← Volume.readFork sys cmd effectiveLen
  pure ⟨if eof ∧ cmd.reqCount > 0 then AfpError.code .eofErr else NO_ERROR, data⟩

/-- `write`: the data that the client sends on request. -/
def spWrite (written : Option Bytes) : Afp Bytes := Proc.orElse written .miscErr

/-- The offset after the last byte; a sum past 32 bits is an overflow. -/
def lastByteOffset (offset bytesWritten : ℕ) : Checked ℕ :=
  let sum := offset + bytesWritten % 4294967296
  if sum < 4294967296 then .ok sum else .error .overflow

omit [MacRoman] in
/-- Replied with the offset after the data. -/
def handleWrite (cmd : FPWrite) (written : Option Bytes) : Afp AspCommandResponse := do
  let data ← spWrite written
  let bytesWritten ← Volume.writeFork sys cmd.forkId cmd.offset data
  let last ← Proc.lift (lastByteOffset cmd.offset bytesWritten)
  pure (success (be32 (UInt32.ofNat last)))

/-- What the sync says is dropped. -/
def handleFlush : Afp AspCommandResponse := do
  let _ ← Proc.attempt (Volume.sync sys)
  pure (success [])

omit [MacRoman] in
/-- What the sync says is dropped. -/
def handleFlushFork (forkId : UInt16) : Afp AspCommandResponse := do
  let _ ← Proc.attempt (Volume.syncFork sys forkId)
  pure (success [])

/-! ## Desktop database -/

omit [MacRoman] in
/-- FPOpenDT. -/
def handleOpenDt : Afp AspCommandResponse := do
  let refNum ← Volume.openDt sys
  pure (success (be16 refNum))

omit [MacRoman] in
/-- FPGetIcon. -/
def handleGetIcon (req : FPGetIcon) : Afp AspCommandResponse := do
  let data ← Volume.withDt req.dtRefNum
    (DesktopDatabase.getIcon sys req.fileCreator req.fileType req.iconType)
  pure (success data)

omit [MacRoman] in
/-- FPAddIcon. -/
def handleAddIcon (req : FPAddIcon) (written : Option Bytes) : Afp AspCommandResponse := do
  let data ← spWrite written
  Volume.withDt req.dtRefNum
    (DesktopDatabase.addIcon sys req.fileCreator req.fileType req.iconType data)
  pure (success [])

/-- FPGetIconInfo. -/
def handleGetIconInfo (req : IndexRequest) : Afp AspCommandResponse := do
  let (iconTag, fileType, size) ← Volume.withDt req.dtRefNum
    (DesktopDatabase.getIconInfo req.fileCreator req.index)
  pure (success (be32 iconTag ++ be32 fileType ++ be16 size))

/-- FPAddComment. -/
def handleAddComment (cmd : FPAddComment) : Afp AspCommandResponse := do
  Volume.setComment sys cmd.directoryId (afpPathToPosix cmd.path.value) cmd.comment
  pure (success [])

/-- FPGetComment. -/
def handleGetComment (cmd : ObjectRequest) : Afp AspCommandResponse := do
  let comment ← Volume.getComment sys cmd.directoryId (afpPathToPosix cmd.path.value)
  pure (success (UInt8.ofNat comment.length :: comment))

/-- FPRemoveComment. -/
def handleRemoveComment (cmd : ObjectRequest) : Afp AspCommandResponse := do
  Volume.removeComment sys cmd.directoryId (afpPathToPosix cmd.path.value)
  pure (success [])

/-- FPAddAPPL. -/
def handleAddAppl (req : FPAddAPPL) : Afp AspCommandResponse := do
  Volume.withDt req.dtRefNum (DesktopDatabase.addAppl sys req.fileCreator (UInt32.ofNat req.tag)
    req.directoryId req.path.value)
  pure (success [])

/-- FPRemoveAPPL. -/
def handleRemoveAppl (req : FPRemoveAPPL) : Afp AspCommandResponse := do
  Volume.withDt req.dtRefNum
    (DesktopDatabase.removeAppl sys req.fileCreator req.directoryId req.path.value)
  pure (success [])

/-- The path comes back in MacRoman, at most 255 bytes of it. -/
def handleGetAppl (req : IndexRequest) : Afp AspCommandResponse := do
  let (tag, directoryId, path) ← Volume.withDt req.dtRefNum
    (DesktopDatabase.getAppl req.fileCreator req.index)
  let encodedPath := (MacRoman.encode path).take 255
  pure (success (be32 tag ++ be32 directoryId ++ [2, UInt8.ofNat encodedPath.length] ++ encodedPath))

/-! ## Server and volume -/

/-- Version, authentication method and credentials. -/
def afpVersions : List Name :=
  ["AFPVersion 1.0", "AFPVersion 1.1", "AFPVersion 2.0", "AFPVersion 2.1"].map String.toList

/-- The login methods. -/
def NO_USER_AUTHENT : Name := "no user authent".toList
def CLEARTXT_PASSWRD : Name := "cleartxt passwrd".toList

/-- `FPLogin::parse`: methods are compared without regard to case. -/
def FPLogin.parse {σ : Type} (buf : Bytes) : Proc σ AfpError Unit := do
  need 2 buf
  let version ← stringField buf 0
  if version.value ∉ afpVersions then Proc.throw .badVersNum
  else
    let offset := version.byteLen
    let uam ← stringField buf offset
    let offset := offset + uam.byteLen
    if asciiLower uam.value = NO_USER_AUTHENT then pure ()
    else if asciiLower uam.value = CLEARTXT_PASSWRD then
      let username ← stringField buf offset
      let offset := offset + username.byteLen
      if offset + 8 > buf.length then Proc.throw .invalidSize
      else
        let _ ← Proc.lift (slice buf offset (offset + 8))
        pure ()
    else Proc.throw .badUam

/-- The session number, and a number nobody uses. -/
def handleLogin (sessionId : UInt8) : Afp AspCommandResponse :=
  pure (success (be16 sessionId.toUInt16 ++ [0, 0]))

/-- Room for the parameters of the volume. -/
def SRVR_PARMS_BUF : ℕ := 512

/-- `FPGetSrvrParms::to_bytes` for the one volume; `none` where it does not fit. -/
def srvrParms (serverTime : UInt32) (name : Name) : Option Bytes :=
  let encodedName := (MacRoman.encode name).take 255
  let nameLen := (utf8 name).length
  if SRVR_PARMS_BUF < 5 + (2 + encodedName.length) then none
  else if encodedName.length < nameLen then none
  else if nameLen < encodedName.length then none
  else some (be32 serverTime ++ [1, 0, UInt8.ofNat encodedName.length] ++ encodedName)

/-- FPGetVolParms. -/
def volParms (bitmap : Bitmap) : Afp AspCommandResponse := do
  let (out, len) ← Volume.getBitmapResp sys bitmap (zeros SRVR_PARMS_BUF)
  pure (success (out.take len))

/-! ## Requests -/

/-- A parsed command, with what a handler takes from the transport beside it. -/
inductive Request where
  | byteRangeLock (req : FPByteRangeLock)
  | closeVol
  | closeFork (forkId : UInt16)
  | copyFile (cmd : FPCopyFile)
  | createDir (cmd : ObjectRequest)
  | createFile (cmd : FPCreateFile)
  | delete (cmd : ObjectRequest)
  | enumerate (cmd : FPEnumerate) (maxResponse : ℕ)
  | flush
  | flushFork (forkId : UInt16)
  | getFileParms (cmd : ObjectRequest)
  | getForkParms (forkId : UInt16) (bitmap : Bitmap)
  | getDirParms (cmd : ObjectRequest)
  | volParms (bitmap : Bitmap)
  | login
  | moveAndRename (cmd : FPMoveAndRename)
  | openFork (forkType : ForkType) (cmd : FPOpenFork)
  | read (cmd : FPRead) (maxResponse : ℕ)
  | rename (cmd : FPRename)
  /-- with the data of the whole command -/
  | setDirParms (cmd : FPSetDirParms) (data : Bytes)
  | setFileParms (cmd : ObjectRequest) (params : Bytes)
  | setForkParms (cmd : FPSetForkParms)
  | write (cmd : FPWrite) (written : Option Bytes)
  | getFileDirParms (cmd : FPGetFileDirParms)
  | setFileDirParms (cmd : ObjectRequest) (params : Bytes)
  | getSrvrMsg
  | openDt
  | closeDt
  | getIcon (req : FPGetIcon)
  | getIconInfo (req : IndexRequest)
  | addAppl (req : FPAddAPPL)
  | removeAppl (req : FPRemoveAPPL)
  | getAppl (req : IndexRequest)
  | addComment (cmd : FPAddComment)
  | removeComment (cmd : ObjectRequest)
  | getComment (cmd : ObjectRequest)
  | addIcon (req : FPAddIcon) (written : Option Bytes)
  | unknown

section
variable {σ : Type}

/-- Three commands cut off their payload before they parse it, and so does the next one. -/
def cutPayload (command : AspCommand) : Proc σ AfpError Bytes :=
  Proc.lift (sliceFrom command.data 2)

/-- Whatever is wrong with a write request, the error is the same. -/
def parseWrite (payload : Bytes) : Proc σ AfpError FPWrite := do
  let parsed ← Proc.attempt (FPWrite.parse payload)
  match parsed with
  | .ok cmd => pure cmd
  | .error _ => Proc.throw .paramError

/-- FPOpenVol takes its bitmap from where other requests have the volume. -/
def parseOpenVol (command : AspCommand) : Proc σ AfpError Bitmap :=
  if command.data.length < 4 then Proc.throw .paramError
  else pure (ofBe16 (command.data.getD 2 0) (command.data.getD 3 0) &&& VolParm.all)

/-- The fork is in the byte that pads other requests. -/
def openForkType (command : AspCommand) : ForkType :=
  ForkType.ofByte ((command.data.getD 1 0) &&& 0x80)

/-- The request of a command by its code; those that end a session are not among them. -/
def request (command : AspCommand) (code : ℕ) : Proc σ AfpError Request :=
  let payload := command.payload 2
  match code with
  | 1 => .byteRangeLock <$> FPByteRangeLock.parse (command.payload 1)
  | 2 => pure .closeVol
  | 4 => .closeFork <$> FPCloseFork.parse payload
  | 5 => .copyFile <$> (cutPayload command >>= FPCopyFile.parse)
  | 6 => .createDir <$> FPCreateDir.parse payload
  | 7 => .createFile <$> FPCreateFile.parse (command.payload 1)
  | 8 => .delete <$> FPDelete.parse payload
  | 9 => (.enumerate · command.maxResponseBytes) <$> FPEnumerate.parse payload
  | 10 => (fun _ => .flush) <$> FPFlush.parse payload
  | 11 => .flushFork <$> FPFlushFork.parse payload
  | 13 => .getFileParms <$> FPGetFileParms.parse payload
  | 14 => (fun r => .getForkParms r.1 r.2) <$> FPGetForkParms.parse payload
  | 15 => .getDirParms <$> FPGetDirParms.parse payload
  | 17 => (fun r => .volParms r.2) <$> FPGetVolParms.parse payload
  | 18 => (fun _ => .login) <$> (Proc.lift (sliceFrom command.data 1) >>= FPLogin.parse)
  | 23 => .moveAndRename <$> (cutPayload command >>= FPMoveAndRename.parse)
  | 24 => .volParms <$> parseOpenVol command
  | 26 => .openFork (openForkType command) <$> FPOpenFork.parse payload
  | 27 => (.read · command.maxResponseBytes) <$> FPRead.parse payload
  | 28 => .rename <$> (cutPayload command >>= FPRename.parse)
  | 29 => (.setDirParms · command.data) <$> FPSetDirParms.parse payload
  | 30 => (fun r => .setFileParms r.1 r.2) <$> FPSetFileParms.parse payload
  | 31 => .setForkParms <$> FPSetForkParms.parse payload
  | 33 => (.write · command.written) <$> (cutPayload command >>= parseWrite)
  | 34 => .getFileDirParms <$> FPGetFileDirParms.parse payload
  | 35 => (fun r => .setFileDirParms r.1 r.2) <$> FPSetFileDirParms.parse payload
  | 38 => pure .getSrvrMsg
  | 48 => pure .openDt
  | 49 => pure .closeDt
  | 51 => .getIcon <$> FPGetIcon.parse payload
  | 52 => .getIconInfo <$> FPGetIconInfo.parse payload
  | 53 => .addAppl <$> FPAddAPPL.parse payload
  | 54 => .removeAppl <$> FPRemoveAPPL.parse payload
  | 55 => .getAppl <$> FPGetAPPL.parse payload
  | 56 => .addComment <$> FPAddComment.parse payload
  | 57 => .removeComment <$> FPRemoveComment.parse payload
  | 58 => .getComment <$> FPGetComment.parse payload
  | 192 => (.addIcon · command.written) <$> FPAddIcon.parse payload
  | _ => pure .unknown

end

/-! ## The session -/

/-- The handler of a request. -/
def perform (sessionId : UInt8) : Request → Afp AspCommandResponse
  | .byteRangeLock req => handleByteRangeLock sys req
  | .closeVol => pure (success [])
  | .closeFork forkId => handleCloseFork sys forkId
  | .copyFile cmd => handleCopyFile sys cmd
  | .createDir cmd => handleCreateDir sys cmd
  | .createFile cmd => handleCreateFile sys cmd
  | .delete cmd => handleDelete sys cmd
  | .enumerate cmd maxResponse => handleEnumerate sys cmd maxResponse
  | .flush => handleFlush sys
  | .flushFork forkId => handleFlushFork sys forkId
  | .getFileParms cmd => handleGetFileParms sys cmd
  | .getForkParms forkId bitmap => handleGetForkParms sys forkId bitmap
  | .getDirParms cmd => handleGetDirParms sys cmd
  | .volParms bitmap => volParms sys bitmap
  | .login => handleLogin sessionId
  | .moveAndRename cmd => handleMoveAndRename sys cmd
  | .openFork forkType cmd => handleOpenFork sys forkType cmd
  | .read cmd maxResponse => handleRead sys cmd maxResponse
  | .rename cmd => handleRename sys cmd
  | .setDirParms cmd data => handleSetDirParms sys cmd data
  | .setFileParms cmd params => handleSetFileParms sys cmd params
  | .setForkParms cmd => handleSetForkParms sys cmd
  | .write cmd written => handleWrite sys cmd written
  | .getFileDirParms cmd => handleGetFileDirParms sys cmd
  | .setFileDirParms cmd params => handleSetFileDirParms sys cmd params
  | .getSrvrMsg => pure (success [0, 0, 0, 0])
  | .openDt => handleOpenDt sys
  | .closeDt => pure (success [])
  | .getIcon req => handleGetIcon sys req
  | .getIconInfo req => handleGetIconInfo req
  | .addAppl req => handleAddAppl sys req
  | .removeAppl req => handleRemoveAppl sys req
  | .getAppl req => handleGetAppl req
  | .addComment cmd => handleAddComment sys cmd
  | .removeComment cmd => handleRemoveComment sys cmd
  | .getComment cmd => handleGetComment sys cmd
  | .addIcon req written => handleAddIcon sys req written
  | .unknown => Proc.throw .badVersNum

/-- The commands that are told by their code alone. -/
def AFP_CMD_GET_SRVR_PARMS : ℕ := 16
def AFP_CMD_LOGOUT : ℕ := 20

/-- One turn of `handle_session`. -/
def serve (sessionId : UInt8) (command : AspCommand) : Afp Turn :=
  match command.data with
  | [] => pure (.reply (errorReply .paramError))
  | code :: _ =>
    if code.toNat = AFP_CMD_GET_SRVR_PARMS then do
      let v ← Proc.read
      match srvrParms (timeToAfp sys.now) v.name with
      | some data => pure (.reply (success data))
      | none => pure .failed
    else if code.toNat = AFP_CMD_LOGOUT then pure (.logout (success []))
    else do
      let response ← answer (request command code.toNat >>= perform sys sessionId)
      pure (.reply response)

end Server

end TailTalk
