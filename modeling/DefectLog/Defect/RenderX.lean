import DefectLog.Report.Assembly

namespace DefectLog.RenderX

-- The fixed set of defects of the RenderX renderer, in the order in which they are shown.
def defects : List Defect := [
  { number := 1
    title  := "Staging Allocator Buffer Overflow"
    cause  := [
      "The chunk-based staging allocator had three problems at once:",
      "1. std::vector<StagingChunk> m_AllChunks reallocated on push_back, invalidating the " ++
        "m_CurrentChunk raw pointer.",
      "2. Chunks were copied by value between m_AllChunks, m_InFlightChunks, and m_FreeChunks. " ++
        "When recycling a free chunk the code searched m_AllChunks by VkBuffer handle but never " ++
        "re-added it, so it returned a stale entry with a full currentOffset.",
      "3. StagingChunk::allocate() logged the overflow but continued anyway, returning an " ++
        "out-of-bounds offset.",
      "",
      "Validation errors seen:",
      "VUID-vkCmdCopyBufferToImage: trying to copy past end of VkBuffer",
      "VUID-vkCmdCopyBuffer-srcOffset: srcOffset (75498496) > size of srcBuffer (67108864)"]
    fix    := [
      "Rewrote the staging allocator as a single-use batch uploader " ++
        "(VulkanLoadTimeStagingUploader):",
      "- All upload data is appended to a CPU-side std::vector<uint8_t> first.",
      "- On flush(), one staging VkBuffer is created at the exact size needed.",
      "- All barriers and copies are recorded in a single command buffer and submitted once.",
      "- The staging buffer is destroyed immediately after the fence signals.",
      "",
      "Result: one staging buffer, one GPU submit, zero overflow bugs, memory freed right after " ++
        "load."] },
  { number := 2
    title  := "Shadow Map Layout Transition Missing"
    cause  := [
      "The shadow map texture was never transitioned out of UNDEFINED before being used as a depth " ++
        "attachment.",
      "The barrier call existed but was either not reached on the first frame or had the wrong old " ++
        "layout."]
    fix    := [
      "Added an explicit UndefinedToDepthStencil barrier for the shadow map before the shadow pass.",
      "Used UNDEFINED as oldLayout so the barrier is always valid regardless of frame number."] },
  { number := 3
    title  := "Depth Buffer Barrier Commented Out + Wrong Array Size"
    cause  := [
      "In ModelRenderer::forwardPass(), the depth buffer barrier was commented out:",
      "    TextureBarrier barriers[1] = \x7b",
      "        TextureBarrier::PresentToColorAttachment(swapTex),",
      "        // TextureBarrier::UndefinedToDepthStencil(m_DepthBuffer),  <- commented out",
      "    \x7d;",
      "Two issues: depth buffer was never transitioned from UNDEFINED, and the array was declared " ++
        "size 1 with 2 initializers (undefined behaviour)."]
    fix    := [
      "Uncommented the depth barrier and fixed the array size:",
      "    TextureBarrier barriers[2] = \x7b",
      "        TextureBarrier::PresentToColorAttachment(swapTex),",
      "        TextureBarrier::UndefinedToDepthStencil(m_DepthBuffer),",
      "    \x7d;",
      "    cmd->Barrier(nullptr, 0, nullptr, 0, barriers, 2);",
      "",
      "Since the depth attachment uses LoadOp::CLEAR every frame, UNDEFINED as old layout is " ++
        "always correct."] },
  { number := 4
    title  := "Swapchain Image Layout Wrong on First Frame"
    cause  := [
      "The forward pass used TextureBarrier::PresentToColorAttachment() to transition the " ++
        "swapchain image before rendering.",
      "That preset sets oldLayout = PRESENT.",
      "",
      "On the very first frame (and any frame using an image that has never been presented), the " ++
        "actual layout is UNDEFINED, not PRESENT.",
      "The driver ignores a barrier whose oldLayout does not match the real layout, so the " ++
        "transition never happened.",
      "beginRendering() then tried to use the image as a color attachment while it was still " ++
        "UNDEFINED.",
      "",
      "Validation error: VUID-vkCmdDraw-None-09600: expects VkImage to be in " ++
        "VK_IMAGE_LAYOUT_PRESENT_SRC_KHR, instead current layout is VK_IMAGE_LAYOUT_UNDEFINED"]
    fix    := [
      "Changed the swapchain barrier to always use UNDEFINED as oldLayout:",
      "    TextureBarrier(swapTex,",
      "        TextureLayout::UNDEFINED,          // always safe, discards previous contents",
      "        TextureLayout::COLOR_ATTACHMENT,",
      "        PipelineStage::TOP_OF_PIPE, AccessFlags::NONE,",
      "        PipelineStage::COLOR_ATTACHMENT_OUTPUT, AccessFlags::COLOR_ATTACHMENT_WRITE);",
      "",
      "UNDEFINED as oldLayout is always valid when you are about to clear the image anyway.",
      "This works correctly on frame 0 (image truly UNDEFINED) and all subsequent frames (previous " ++
        "contents discarded, which matches LoadOp::CLEAR)."] }]

def title := "RenderX Vulkan — Bug Log"

def subtitle := "Errors encountered and how they were fixed"

def closing := "renderer stable"

def report (sheet : Sheet) : Report :=
  .assemble sheet title subtitle (some closing) defects

end DefectLog.RenderX
